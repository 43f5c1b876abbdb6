import BoundQuery.Proofs.Store.Borrowed

/-!
# Longer texts

One source more makes a text longer, and with it every text that takes it in, at any depth. So a
statement cannot be reached without it showing.

## Main statements

* `Statement.Flat.length_lt_text`: a statement with one source more.
* `Store.length_textWithin`: the texts of a store in which one statement grows.
* `Store.text_call_source_ne`: a call that shows wherever its statement is reached.
-/

namespace BoundQuery

/-! ## Sources -/

namespace Clause

theorem textsFrom_append_text (index : Nat) (items : List Value) (name : String) :
    textsFrom index (items ++ [.text name]) = (textsFrom index items).map (· ++ [name]) := by
  induction items generalizing index with
  | nil => rfl
  | cons v rest ih =>
    simp only [List.cons_append, textsFrom]
    cases v.text? with
    | none => rfl
    | some s =>
      simp only [ih]
      rcases textsFrom (index + 1) rest with failure | texts <;> rfl

/-- A list with one text more makes a longer clause. -/
theorem length_lt_list {lead t t' : String} (hlead : 0 < lead.length) {items : List Value}
    {name : String} (ht : list lead items = .ok t)
    (ht' : list lead (items ++ [.text name]) = .ok t') : t.length < t'.length := by
  cases items with
  | nil =>
    cases ht
    cases ht'
    rw [String.length_append]
    exact Nat.lt_add_right _ hlead
  | cons v rest =>
    obtain ⟨joined, hjoined, ht⟩ := Result.bind_eq_ok.1 ht
    obtain ⟨texts, htexts, hjoined⟩ := Result.bind_eq_ok.1 hjoined
    obtain ⟨joined', hjoined', ht'⟩ := Result.bind_eq_ok.1 ht'
    obtain ⟨texts', htexts', hjoined'⟩ := Result.bind_eq_ok.1 hjoined'
    rw [textsFrom_append_text, htexts] at htexts'
    cases htexts'
    cases hjoined
    cases hjoined'
    cases ht
    cases ht'
    have hne : texts ≠ [] := by
      rintro rfl
      simp only [textsFrom] at htexts
      split at htexts
      · obtain ⟨more, -, htexts⟩ := Result.bind_eq_ok.1 htexts
        cases htexts
      · cases htexts
    have hcomma : 0 < ", ".length := by decide
    rw [String.intercalate_append_of_ne_nil hne (List.cons_ne_nil _ _)]
    simp only [String.length_append]
    omega

end Clause

namespace Statement

/-- A statement with one source more. -/
def withSource (s : Statement) (name : String) : Statement :=
  Change.apply s (.source (.text name))

theorem Flat.withSource {s : Statement} (hs : s.Flat) (name : String) : (s.withSource name).Flat :=
  ⟨hs.label, hs.columns, hs.branches⟩

/-- The length of a text is that of its own pieces and of the texts that it takes in. -/
theorem Flat.length_text {s : Statement} (hs : s.Flat) {f : Resolver} {variant : Variant}
    {t : String} (ht : s.text f variant = .ok t) :
    ∃ own us, s.text Resolver.blank variant = .ok own ∧ s.taken.mapM f = .ok us ∧
      t.length = own.length + (us.flatMap String.toList).length := by
  obtain ⟨own, us, hown, hus, hperm⟩ := hs.perm_text ht
  have hlength := hperm.length_eq
  rw [List.length_append, String.length_toList, String.length_toList] at hlength
  exact ⟨own, us, hown, hus, hlength⟩

theorem length_lt_body {s : Statement} {name : String} {f : Resolver} {t t' : String}
    (ht : s.body f = .ok t) (ht' : (s.withSource name).body f = .ok t') :
    t.length < t'.length := by
  obtain ⟨columns, sources, joins, rows, groupings, groups, orderings, limit, branches, hcolumns,
    hsources, hjoins, hrows, hgroupings, hgroups, horderings, hlimit, hbranches, rfl⟩ :=
    body_eq_ok.1 ht
  obtain ⟨columns', sources', joins', rows', groupings', groups', orderings', limit', branches',
    hcolumns', hsources', hjoins', hrows', hgroupings', hgroups', horderings', hlimit',
    hbranches', rfl⟩ := body_eq_ok.1 ht'
  cases hcolumns.symm.trans hcolumns'
  cases hjoins.symm.trans hjoins'
  cases hrows.symm.trans hrows'
  cases hgroupings.symm.trans hgroupings'
  cases hgroups.symm.trans hgroups'
  cases horderings.symm.trans horderings'
  cases hlimit.symm.trans hlimit'
  cases hbranches.symm.trans hbranches'
  have hlonger := Clause.length_lt_list (by decide) hsources hsources'
  simp only [String.length_append]
  omega

/-- One source more makes a longer text. -/
theorem length_lt_text {s : Statement} {name : String} {f : Resolver} {variant : Variant}
    {t t' : String} (ht : s.text f variant = .ok t)
    (ht' : (s.withSource name).text f variant = .ok t') : t.length < t'.length := by
  cases variant with
  | query => exact length_lt_body ht ht'
  | subselect =>
    obtain ⟨body, hbody, ht⟩ := Result.bind_eq_ok.1 ht
    obtain ⟨label, hlabel, ht⟩ := Result.bind_eq_ok.1 ht
    obtain ⟨body', hbody', ht'⟩ := Result.bind_eq_ok.1 ht'
    obtain ⟨label', hlabel', ht'⟩ := Result.bind_eq_ok.1 ht'
    cases ht
    cases ht'
    cases hlabel.symm.trans hlabel'
    have hlonger := length_lt_body hbody hbody'
    simp only [String.length_append]
    omega

end Statement

/-! ## Stores -/

/-- Of two sequences of texts, where no text of the first is longer than that of the second, the
first is not longer in all, and shorter if one of its texts is. -/
theorem length_flatMap_texts {l : List Ref} {f g : Resolver}
    (h : ∀ q ∈ l, ∀ t t', f q = .ok t → g q = .ok t' → t.length ≤ t'.length)
    {us vs : List String} (hus : l.mapM f = .ok us) (hvs : l.mapM g = .ok vs) :
    (us.flatMap String.toList).length ≤ (vs.flatMap String.toList).length ∧
      ((∃ q ∈ l, ∀ t t', f q = .ok t → g q = .ok t' → t.length < t'.length) →
        (us.flatMap String.toList).length < (vs.flatMap String.toList).length) := by
  induction l generalizing us vs with
  | nil =>
    cases hus
    cases hvs
    exact ⟨Nat.le_refl _, by simp⟩
  | cons q rest ih =>
    rw [List.mapM_cons] at hus hvs
    obtain ⟨t, ht, hus⟩ := Result.bind_eq_ok.1 hus
    obtain ⟨us', hus', hus⟩ := Result.bind_eq_ok.1 hus
    obtain ⟨t', ht', hvs⟩ := Result.bind_eq_ok.1 hvs
    obtain ⟨vs', hvs', hvs⟩ := Result.bind_eq_ok.1 hvs
    cases hus
    cases hvs
    obtain ⟨hle, hlt⟩ := ih (fun p hp => h p (List.mem_cons_of_mem q hp)) hus' hvs'
    have hq := h q List.mem_cons_self t t' ht ht'
    simp only [List.flatMap_cons, List.length_append, String.length_toList]
    refine ⟨by omega, ?_⟩
    rintro ⟨p, hp, hstrict⟩
    rcases List.mem_cons.1 hp with rfl | hp
    · have := hstrict t t' ht ht'
      omega
    · have := hlt ⟨p, hp, hstrict⟩
      omega

namespace Store

variable {store later : Store}

/-- Where one statement has one source more, no text is shorter, and those of the statements that
reach it are longer. -/
theorem length_textWithin (hflat : ∀ s ∈ store.statements, s.Flat) {i : Nat} {name : String}
    (hi : later.statements[i]? = store.statements[i]?.map (·.withSource name))
    (hother : ∀ j, j ≠ i → later.statements[j]? = store.statements[j]?) (n : Nat) {r : Ref}
    {t t' : String} (ht : store.textWithin n r = .ok t) (ht' : later.textWithin n r = .ok t') :
    t.length ≤ t'.length ∧ (store.Reaches r.index i → t.length < t'.length) := by
  induction n generalizing r t t' with
  | zero => cases ht
  | succ n ih =>
    cases hs : store.get? r with
    | none =>
      rw [textWithin_succ_of_none hs] at ht
      cases ht
    | some s =>
      have hsflat := hflat s (List.mem_of_getElem? hs)
      rw [textWithin_succ hs] at ht
      obtain ⟨own, us, hown, hus, hlength⟩ := hsflat.length_text ht
      by_cases hr : r.index = i
      · have hs' : later.get? r = some (s.withSource name) := by
          rw [get?, hr, hi, ← hr, show store.statements[r.index]? = some s from hs]
          rfl
        rw [textWithin_succ hs'] at ht'
        obtain ⟨own', us', hown', hus', hlength'⟩ := (hsflat.withSource name).length_text ht'
        have hlonger := Statement.length_lt_text hown hown'
        have hle := (length_flatMap_texts (fun q _ u u' hu hu' => (ih hu hu').1) hus hus').1
        exact ⟨by omega, fun _ => by omega⟩
      · have hs' : later.get? r = some s := (hother r.index hr).trans hs
        rw [textWithin_succ hs'] at ht'
        obtain ⟨own', us', hown', hus', hlength'⟩ := hsflat.length_text ht'
        cases hown.symm.trans hown'
        obtain ⟨hle, hlt⟩ := length_flatMap_texts (fun q _ u u' hu hu' => (ih hu hu').1) hus hus'
        refine ⟨by omega, fun hreaches => ?_⟩
        rcases Relation.ReflTransGen.cases_head hreaches with heq | ⟨k, ⟨u, hu, q, hq, rfl⟩, hk⟩
        · exact absurd heq hr
        · obtain rfl : u = s := Option.some.inj (hu.symm.trans hs)
          have hmore := hlt ⟨q, hsflat.mem_taken_of_mem_shown hq, fun v v' hv hv' =>
            (ih hv hv').2 hk⟩
          omega

/-- A call for one source more shows in every text that can be written and reaches the statement. -/
theorem text_call_source_ne (hbalanced : ∀ s ∈ store.statements, s.Balanced)
    (hflat : ∀ s ∈ store.statements, s.Flat) {r q : Ref} {s : Statement}
    (hs : store.get? q = some s) (hreaches : store.Reaches r.index q.index) {t : String}
    (ht : store.text r = .ok t) (name : String) :
    ((call q (.source (.text name))).run store).state.text r ≠ store.text r := by
  let later := ((call q (.source (.text name))).run store).state
  have hlater : later = store.set q (s.withSource name) := by
    have hstate := state_call_of_get? hs (.source (.text name))
    rw [Call.state_perform store.text _ (hbalanced s (List.mem_of_getElem? hs))] at hstate
    exact hstate
  have hsize : later.size = store.size := size_call q _ store
  have hi : later.statements[q.index]? = store.statements[q.index]?.map (·.withSource name) := by
    change later.get? q = (store.get? q).map (·.withSource name)
    rw [hlater, get?_set, if_pos rfl, hs]
    rfl
  intro heq
  have ht' : later.textWithin (store.size + 1) r = .ok t := by
    have htext : later.text r = .ok t := heq.trans ht
    rwa [text, hsize] at htext
  have hlonger := (length_textWithin hflat hi (fun j hj => getElem?_call (Ne.symm hj) _ store)
    (store.size + 1) ht ht').2 hreaches
  exact absurd hlonger (Nat.lt_irrefl _)

end Store

end BoundQuery
