import BoundQuery.Proofs.Placeholder.Direct
import BoundQuery.Proofs.Store.Compiled
import BoundQuery.Proofs.Store.Longer
import Mathlib.Algebra.Ring.Nat

/-!
# Placeholders of borrowed queries

Where no raw text has a placeholder and no value is bound directly, a statement compiled has a value
for every placeholder that it and what it owns have written. What it borrows brings its placeholders
and no values.

## Main definitions

* `Statement.Clean`: a flat statement without placeholders in raw text.
* `Store.marks`: the number of placeholders in a text.

## Main statements

* `Store.marks_of_compileWithin`: the placeholders and the values of a compiled statement.
* `Store.clone_but_borrowed`: the calls that show in a copy.
* `Store.agree_but_borrowed`: writing, compiling and copying agree on all but what is borrowed.
* `Store.borrowed_not_compiled`: on that they do not.
-/

namespace BoundQuery

/-! ## Own pieces -/

namespace Statement

/-- A flat statement has no placeholder in its raw text. -/
structure Clean (s : Statement) : Prop extends s.Flat where
  unmarked_label : s.label.Unmarked
  unmarked_columns : ∀ v ∈ s.columns, v.Unmarked
  sources : ∀ v ∈ s.sources, v.Unmarked
  joins : ∀ j ∈ s.joins, j.source.Unmarked
  conditions : ∀ filter, ∀ c ∈ s.conditions filter, c.predicate.Plain
  groupings : ∀ v ∈ s.groupings, v.Unmarked
  orderings : ∀ v ∈ s.orderings, v.Unmarked

/-- A plain statement is clean: its columns are texts or subselects. -/
theorem Plain.clean {s : Statement} (h : s.Plain) : s.Clean :=
  { h with
    label := h.label.imp_right fun ⟨t, ht, _⟩ => ⟨t, ht⟩
    columns := fun v hv => (h.columns v hv).imp (fun ⟨t, ht, _⟩ => ⟨t, ht⟩)
      fun ⟨r, hr⟩ => ⟨r, (Value.subselect?_eq_some.1 hr).1⟩
    unmarked_label := by
      rcases h.label with hnull | hplain
      · rw [hnull]
        intro t ht
        cases ht
      · exact hplain.unmarked
    unmarked_columns := fun v hv => (h.columns v hv).unmarked }

end Statement

theorem Value.Unmarked.display_blank {v : Value} (h : v.Unmarked)
    (hv : (∃ t, v.text? = some t) ∨ ∃ r, v = .statement r) {t : String}
    (ht : v.display Resolver.blank = .ok t) : BoundQuery.Unmarked t := by
  rcases hv with ⟨s, hs⟩ | ⟨r, rfl⟩
  · obtain ⟨u, hu, hdisplay⟩ := Value.Plain.display_eq ⟨s, hs, h s hs⟩
    rw [hdisplay] at ht
    cases ht
    exact hu
  · cases ht
    decide

namespace Statement

variable {s : Statement} {t : String}

theorem Clean.unmarked_select (hs : s.Clean)
    (ht : Clause.select Resolver.blank s.columns s.distinct = .ok t) : Unmarked t := by
  have hlead : Unmarked (if s.distinct then "SELECT distinct " else "SELECT ") := by
    split <;> decide
  cases hcolumns : s.columns with
  | nil =>
    rw [hcolumns, Clause.select_nil] at ht
    cases ht
    split <;> decide
  | cons v rest =>
    rw [hcolumns] at ht
    obtain ⟨texts, htexts, ht⟩ := Result.bind_eq_ok.1 ht
    cases ht
    refine unmarked_append.2 ⟨hlead, unmarked_intercalate (by decide) fun u hu => ?_⟩
    obtain ⟨w, hw, hwu⟩ := exists_mem_of_forall₂ (Result.mapM_eq_ok.1 htexts) hu
    rw [← hcolumns] at hw
    exact (hs.unmarked_columns w hw).display_blank (hs.columns w hw) hwu

theorem Clean.unmarked_union (hs : s.Clean)
    (ht : Clause.union Resolver.blank s.branches = .ok t) : Unmarked t := by
  obtain ⟨texts, htexts, ht⟩ := Result.bind_eq_ok.1 ht
  cases ht
  have hblank : ∀ u ∈ texts, u = "" := by
    intro u hu
    obtain ⟨w, hw, hwu⟩ := exists_mem_of_forall₂ (Result.mapM_eq_ok.1 htexts) hu
    obtain ⟨r, rfl⟩ := hs.branches w hw
    exact (Except.ok.inj hwu).symm
  intro hmem
  rw [String.toList_join, List.mem_flatMap] at hmem
  obtain ⟨piece, hpiece, hmem⟩ := hmem
  obtain ⟨u, hu, rfl⟩ := List.mem_map.1 hpiece
  rw [hblank u hu] at hmem
  revert hmem
  decide

/-- The own clauses of a clean statement have the placeholders of its conditions. -/
theorem Clean.count_body (hs : s.Clean) (ht : s.body Resolver.blank = .ok t) :
    t.toList.count '?' = (s.rowConditions.flatMap (·.predicate.operands) ++
      s.groupConditions.flatMap (·.predicate.operands)).length := by
  obtain ⟨columns, sources, joins, rows, groupings, groups, orderings, limit, branches, hcolumns,
    hsources, hjoins, hrows, hgroupings, hgroups, horderings, hlimit, hbranches, rfl⟩ :=
    body_eq_ok.1 ht
  have hcolumns := List.count_eq_zero.2 (hs.unmarked_select hcolumns)
  have hsources := List.count_eq_zero.2 (Clause.unmarked_list (by decide) hs.sources hsources)
  have hgroupings := List.count_eq_zero.2
    (Clause.unmarked_list (by decide) hs.groupings hgroupings)
  have horderings := List.count_eq_zero.2
    (Clause.unmarked_list (by decide) hs.orderings horderings)
  have hlimit := List.count_eq_zero.2 (Clause.unmarked_limit hlimit)
  have hbranches := List.count_eq_zero.2 (hs.unmarked_union hbranches)
  have hsourced : (s.joins.flatMap fun j => j.source.raw).count '?' = 0 := by
    rw [List.count_eq_zero, List.mem_flatMap]
    rintro ⟨j, hj, hmem⟩
    exact Value.not_mem_raw (hs.joins j hj) hmem
  have hjoins := (Clause.count_joins hjoins).trans hsourced
  have hrows : rows.toList.count '?' =
      (s.rowConditions.flatMap (·.predicate.operands)).length := by
    rw [(reads_filledConditions (by decide) (hs.conditions .rows) hrows).count_eq,
      values_filledConditions]
    rfl
  have hgroups : groups.toList.count '?' =
      (s.groupConditions.flatMap (·.predicate.operands)).length := by
    rw [(reads_filledConditions (by decide) (hs.conditions .groups) hgroups).count_eq,
      values_filledConditions]
    rfl
  simp only [String.toList_append, List.count_append, List.length_append, hcolumns, hsources,
    hjoins, hrows, hgroupings, hgroups, horderings, hlimit, hbranches]
  omega

/-- The own pieces of a clean statement have the placeholders of its conditions. -/
theorem Clean.count_text (hs : s.Clean) {variant : Variant}
    (ht : s.text Resolver.blank variant = .ok t) :
    t.toList.count '?' = (s.rowConditions.flatMap (·.predicate.operands) ++
      s.groupConditions.flatMap (·.predicate.operands)).length := by
  cases variant with
  | query => exact hs.count_body ht
  | subselect =>
    obtain ⟨body, hbody, ht⟩ := Result.bind_eq_ok.1 ht
    obtain ⟨label, hlabel, ht⟩ := Result.bind_eq_ok.1 ht
    cases ht
    have hunmarked : Unmarked label := by
      rcases hs.label with hnull | hlabeled
      · rw [hnull] at hlabel
        cases hlabel
        decide
      · exact hs.unmarked_label.display_blank (.inl hlabeled) hlabel
    have hlabel := List.count_eq_zero.2 hunmarked
    simp only [String.toList_append, List.count_append, hs.count_body hbody, hlabel]
    simp

end Statement

namespace Store

/-! ## Placeholders and values -/

/-- The number of placeholders in a text; none where there is no text. -/
def marks (store : Store) (r : Ref) : Nat :=
  match store.text r with
  | .ok t => t.toList.count '?'
  | .error _ => 0

variable {store : Store}

theorem marks_of_text {r : Ref} {t : String} (ht : store.text r = .ok t) :
    store.marks r = t.toList.count '?' := by
  rw [marks, ht]

theorem marks_eq_zero_iff {r : Ref} :
    store.marks r = 0 ↔ ∀ t, store.text r = .ok t → Unmarked t := by
  rw [marks]
  rcases store.text r with failure | t
  · simp
  · simp [Unmarked, List.count_eq_zero]

theorem sum_marks_eq_count {l : List Ref} {us : List String} (hus : l.mapM store.text = .ok us) :
    (l.map store.marks).sum = (us.flatMap String.toList).count '?' := by
  rw [Result.mapM_eq_ok] at hus
  induction hus with
  | nil => rfl
  | cons hu _ ih =>
    rw [List.map_cons, List.sum_cons, ih, marks_of_text hu, List.flatMap_cons, List.count_append]

/-- Where each of some statements has so many placeholders more than values, so have they all. -/
theorem sum_marks_of_compiled {extra : Ref → List Ref} {compile : Ref → Except Failure Compiled}
    {l : List Ref}
    (h : ∀ q ∈ l, ∀ c, compile q = .ok c →
      store.marks q = c.params.length + ((extra q).map store.marks).sum)
    {cs : List Compiled} (hcs : l.mapM compile = .ok cs) :
    (l.map store.marks).sum =
      (cs.flatMap (·.params)).length + ((l.flatMap extra).map store.marks).sum := by
  rw [Result.mapM_eq_ok] at hcs
  induction hcs with
  | nil => rfl
  | @cons q c _ _ hc _ ih =>
    have hq := h q List.mem_cons_self c hc
    have hrest := ih fun p hp => h p (List.mem_cons_of_mem q hp)
    simp only [List.map_cons, List.sum_cons, List.flatMap_cons, List.length_append,
      List.map_append, List.sum_append]
    omega

/-- A statement compiled has a placeholder for each of its values, and those that are borrowed. -/
theorem marks_of_compileWithin (hacyclic : store.Acyclic)
    (hclean : ∀ s ∈ store.statements, s.Clean)
    (hbound : ∀ s ∈ store.statements, s.boundInOrder =
      s.rowConditions.flatMap (·.predicate.operands) ++
        s.groupConditions.flatMap (·.predicate.operands))
    {n : Nat} {r : Ref} {c : Compiled} (hc : store.compileWithin n r = .ok c) :
    store.marks r = c.params.length + ((store.borrowedWithin n r).map store.marks).sum := by
  induction n generalizing r c with
  | zero => cases hc
  | succ n ih =>
    have htext := text_of_compileWithin hc
    cases hs : store.get? r with
    | none =>
      rw [compileWithin_succ_of_none hs] at hc
      cases hc
    | some s =>
      have hmem : s ∈ store.statements := List.mem_of_getElem? hs
      have hsclean := hclean s hmem
      rw [compileWithin_succ hs] at hc
      obtain ⟨columns, branches, hcolumns, hbranches, -, hparams⟩ :=
        (Statement.compileFrom_eq_ok hsclean.branches).1 hc
      -- The text: the own pieces, and the texts of what is borrowed and of what is owned.
      have hpieces := htext
      rw [hacyclic.text_eq hs] at hpieces
      obtain ⟨own, us, hown, hus, hperm⟩ := hsclean.perm_text hpieces
      have hcount := hperm.count_eq '?'
      rw [List.count_append, ← sum_marks_eq_count hus, hsclean.count_text hown,
        ← hbound s hmem, (s.perm_taken.map store.marks).sum_nat] at hcount
      have howned : ∀ q d, store.compileWithin n q = .ok d → store.marks q =
          d.params.length + ((store.borrowedWithin n q).map store.marks).sum := fun q d hd => ih hd
      have hsubselects := sum_marks_of_compiled (fun q _ => howned q) hcolumns
      have hunited := sum_marks_of_compiled (fun q _ => howned q) hbranches
      rw [marks_of_text htext, hcount, hparams, borrowedWithin_succ hs]
      simp only [Statement.owned, List.map_append, List.sum_append, List.flatMap_append,
        List.length_append, hsubselects, hunited]
      omega

end Store

/-! ## Writing, compiling and copying -/

theorem Call.eq_parameter_of_change {c : Call} {resolve : Resolver} {settings : Settings}
    {value : Value} (h : c.change resolve settings = .ok (.parameter value)) :
    c = .parameter value := by
  cases c with
  | columns names grouped =>
    have hne : Change.columns (Statement.splitColumns names grouped).1
      (Statement.splitColumns names grouped).2 = .parameter value := Except.ok.inj h
    cases hne
  | attach filter connective condition =>
    obtain ⟨p, -, -, hne⟩ := exists_of_change_attach h
    cases hne
  | orderBy expr ascending =>
    obtain ⟨item, -, hne⟩ := Result.map_eq_ok.1 h
    cases hne
  | parameter other =>
    cases h
    rfl
  | distinct | source | join | groupBy | limit | union => cases h

namespace Store

/-- Without values that are bound directly, the text has none. -/
theorem boundIn_text_after {actions : List Action}
    (h : ∀ r value, .call r (.parameter value) ∉ actions) {s : Statement}
    (hs : s ∈ (empty.after actions).statements) : s.boundIn .text = [] := by
  have hkept : Kept (fun a => ∀ r value, a ≠ .call r (.parameter value))
      fun s : Statement => s.boundIn .text = [] := by
    refine ⟨?_, ?_, ?_, ?_⟩
    · exact fun _ => rfl
    · exact fun _ => rfl
    · intro r c resolve s change hallowed hs htext hchange
      cases change with
      | condition filter c =>
        rw [Statement.boundIn_apply hs, htext]
        rfl
      | parameter value =>
        exact absurd (congrArg (Action.call r) (Call.eq_parameter_of_change hchange))
          (hallowed r value)
      | columns | distinct | source | join | groupBy | orderBy | limit | union => exact htext
    · exact fun htext _ _ => htext
  refine (forall_after hkept (fun a ha r value heq => ?_) s hs).2
  exact h r value (heq ▸ ha)

/-- A copy has the text of its statement. No calls show in it but those on what is borrowed and on
what that takes in, and some on each of these do. -/
theorem clone_but_borrowed {store : Store} (hbalanced : ∀ s ∈ store.statements, s.Balanced)
    (hclosed : store.Closed) (hacyclic : store.Acyclic)
    (hflat : ∀ s ∈ store.statements, s.Flat) {r : Ref} (hr : r.index < store.size) :
    ∃ copies events twin, (clone r).run store = ⟨copies, events, .ok twin⟩ ∧
      copies.text twin = store.text r ∧
      (∀ later : List Action,
        (∀ q c, .call q c ∈ later → copies.size ≤ q.index ∨
          q.index < store.size ∧ ∀ b ∈ store.borrowed r, ¬ store.Reaches b.index q.index) →
        (copies.after later).text twin = copies.text twin) ∧
      ∀ t, copies.text twin = .ok t → ∀ b ∈ store.borrowed r, ∀ q : Ref,
        store.Reaches b.index q.index → ∀ name,
          ((call q (.source (.text name))).run copies).state.text twin ≠ copies.text twin := by
  obtain ⟨copies, events, twin, hclone, hext, hflat', hmirrors, hborrowed, hreaches⟩ :=
    clone_reaches hclosed hacyclic hflat hr
  have hsame : copies.text twin = store.text r := by
    change (copies.after []).text twin = _
    exact text_twin_after hclosed hacyclic hext hr hmirrors fun _ _ => rfl
  refine ⟨copies, events, twin, hclone, hsame, ?_, ?_⟩
  · intro later hlater
    rw [hsame]
    refine text_twin_after hclosed hacyclic hext hr hmirrors fun j hj => ?_
    have hplace := hreaches j hj
    have hlt : j < copies.size := by
      rcases hplace with ⟨-, hlt⟩ | ⟨b, hb, hbj⟩
      · exact hlt
      · have hb' := hclosed.lt_size_of_mem_borrowedWithin hr hb
        exact (hclosed.lt_size_of_reaches hb' hbj).trans_le hext.size_le
    refine getElem?_after hlt ?_
    rintro q c hc rfl
    rcases hlater q c hc with hnew | ⟨hold, hnone⟩
    · omega
    · rcases hplace with ⟨hge, -⟩ | ⟨b, hb, hbq⟩
      · omega
      · exact hnone b hb hbq
  · intro t ht b hb q hq name
    have hb' := hclosed.lt_size_of_mem_borrowedWithin hr hb
    have hqlt := hclosed.lt_size_of_reaches hb' hq
    have hcopies : ∀ s ∈ copies.statements, s.Balanced := by
      have hperform := balanced_perform (.clone r) hbalanced
      rwa [show (perform (.clone r)).run store = ⟨copies, events, .ok twin⟩ from hclone]
        at hperform
    have hget : copies.get? q = some _ :=
      hext.get?_of_eq_some (List.getElem?_eq_getElem hqlt)
    exact text_call_source_ne hcopies hflat' hget
      ((hborrowed b hb).trans (hext.reaches hq)) ht name

/-- Without directly bound values, where no raw text has a placeholder and no statement is a part of
itself, a statement compiles where its text can be written, and to that. Of its placeholders, those
in the texts of what is borrowed are without a value, and no others. So there is one value for every
placeholder only where none of these texts has one. A copy has the same text. What it borrows stays
a part of it: calls on that show, and no others on statements that were there or come later. -/
theorem agree_but_borrowed {actions : List Action} {store : Store}
    (hafter : empty.after actions = store)
    (hvalues : ∀ r value, .call r (.parameter value) ∉ actions) (hclosed : store.Closed)
    (hacyclic : store.Acyclic) (hclean : ∀ s ∈ store.statements, s.Clean) {r : Ref}
    (hr : r.index < store.size) :
    (∀ t, store.text r = .ok t → ∃ c, store.compile r = .ok c) ∧
      (∀ c, store.compile r = .ok c → store.text r = .ok c.sql ∧
        c.sql.toList.count '?' =
          c.params.length + ((store.borrowed r).map store.marks).sum ∧
        (c.sql.toList.count '?' = c.params.length ↔
          ∀ b ∈ store.borrowed r, ∀ t, store.text b = .ok t → Unmarked t)) ∧
      ∃ copies events twin, (clone r).run store = ⟨copies, events, .ok twin⟩ ∧
        copies.text twin = store.text r ∧
        (∀ later : List Action,
          (∀ q c, .call q c ∈ later → copies.size ≤ q.index ∨
            q.index < store.size ∧ ∀ b ∈ store.borrowed r, ¬ store.Reaches b.index q.index) →
          (copies.after later).text twin = copies.text twin) ∧
        ∀ t, copies.text twin = .ok t → ∀ b ∈ store.borrowed r, ∀ q : Ref,
          store.Reaches b.index q.index → ∀ name,
            ((call q (.source (.text name))).run copies).state.text twin ≠ copies.text twin := by
  have hbalanced : ∀ s ∈ store.statements, s.Balanced := fun s hs =>
    balanced_after actions (hafter ▸ hs)
  have hbound : ∀ s ∈ store.statements, s.boundInOrder =
      s.rowConditions.flatMap (·.predicate.operands) ++
        s.groupConditions.flatMap (·.predicate.operands) := fun s hs =>
    Statement.boundInOrder_of_text_eq_nil (boundIn_text_after hvalues (hafter ▸ hs))
      (boundIn_conditions_after actions (hafter ▸ hs))
  refine ⟨?_, ?_, ?_⟩
  · exact fun t ht => exists_compile_of_text hacyclic (fun s hs => (hclean s hs).branches) ht
  · intro c hc
    have htext := text_of_compile hc
    have hmarks : c.sql.toList.count '?' =
        c.params.length + ((store.borrowed r).map store.marks).sum := by
      rw [← marks_of_text htext]
      exact marks_of_compileWithin hacyclic hclean hbound hc
    refine ⟨htext, hmarks, ?_⟩
    calc c.sql.toList.count '?' = c.params.length
      _ ↔ ((store.borrowed r).map store.marks).sum = 0 := by
        rw [hmarks]
        exact Nat.add_eq_left
      _ ↔ ∀ b ∈ store.borrowed r, store.marks b = 0 := by
        rw [List.sum_eq_zero_iff_forall_eq_nat, List.forall_mem_map]
      _ ↔ ∀ b ∈ store.borrowed r, ∀ t, store.text b = .ok t → Unmarked t :=
        forall₂_congr fun b _ => marks_eq_zero_iff
  · exact clone_but_borrowed hbalanced hclosed hacyclic (fun s hs => (hclean s hs).toFlat) hr

/-- A query with a subselect that borrows another query, which has a condition. -/
def lending : List Action :=
  [.query .null .default,
    .call ⟨.query, 0⟩ (.attach .rows .and (.predicate (.comparison .equal "a" (.int 1)))),
    .subselect (.text "s") .default,
    .call ⟨.subselect, 1⟩ (.columns [.statement ⟨.query, 0⟩] .null),
    .query .null .default,
    .call ⟨.query, 2⟩ (.columns [.statement ⟨.subselect, 1⟩] .null)]

theorem statements_lending : (empty.after lending).statements =
    [{ Statement.blank .null .default with
        rowConditions := [⟨.and, .comparison .equal "a" (.int 1)⟩]
        bound := [.int 1]
        parts := [.conditions .rows] },
      { Statement.blank (.text "s") .default with columns := [.statement ⟨.query, 0⟩] },
      { Statement.blank .null .default with columns := [.statement ⟨.subselect, 1⟩] }] := rfl

theorem values_lending (r : Ref) (value : Value) : .call r (.parameter value) ∉ lending := by
  simp [lending]

theorem reachable_lending : (empty.after lending).Reachable := by
  have hlent := Reachable.empty.perform (a := .query .null .default) (by decide)
  have hcondition := hlent.perform (a := .call ⟨.query, 0⟩
    (.attach .rows .and (.predicate (.comparison .equal "a" (.int 1))))) (by decide)
  have hsubselect := hcondition.perform (a := .subselect (.text "s") .default) (by decide)
  have hborrows := hsubselect.perform
    (a := .call ⟨.subselect, 1⟩ (.columns [.statement ⟨.query, 0⟩] .null)) (by decide)
  have hquery := hborrows.perform (a := .query .null .default) (by decide)
  exact hquery.perform
    (a := .call ⟨.query, 2⟩ (.columns [.statement ⟨.subselect, 1⟩] .null)) (by decide)

theorem stacked_lending : (empty.after lending).Stacked 0 := by
  rintro i - j ⟨s, hs, q, hq, rfl⟩
  refine ⟨Nat.zero_le _, ?_⟩
  rw [statements_lending] at hs
  match i with
  | 0 => cases hs; cases hq
  | 1 =>
    cases hs
    revert q
    decide
  | 2 =>
    cases hs
    revert q
    decide
  | _ + 3 => cases hs

theorem clean_lending : ∀ s ∈ (empty.after lending).statements, s.Clean := by
  have hcondition : (Predicate.comparison .equal "a" (Value.int 1)).Plain := by
    intro e he
    rw [List.mem_singleton.1 he]
    decide
  have hlabel : (Value.text "s").Plain := ⟨"s", rfl, by decide⟩
  have hblank := (Statement.plain_blank (.inl rfl) .default).clean
  have hlabeled := (Statement.plain_blank (.inr hlabel) .default).clean
  rw [statements_lending]
  simp only [List.forall_mem_cons]
  refine ⟨{ hblank with conditions := ?_ }, { hlabeled with columns := ?_, unmarked_columns := ?_ },
    { hblank with columns := ?_, unmarked_columns := ?_ }, by simp⟩
  · rintro (_ | _) c hc
    · rw [List.mem_singleton.1 hc]
      exact hcondition
    · cases hc
  · simp [Value.text?]
  · simp [Value.Unmarked, Value.text?]
  · simp [Value.text?]
  · simp [Value.Unmarked, Value.text?]

theorem agree_but_borrowed_lending :
    (∀ r value, .call r (.parameter value) ∉ lending) ∧ (empty.after lending).Closed ∧
      (empty.after lending).Acyclic ∧ (∀ s ∈ (empty.after lending).statements, s.Clean) ∧
      2 < (empty.after lending).size ∧
      ∃ c, (empty.after lending).compile ⟨.query, 2⟩ = .ok c ∧
        c.sql.toList.count '?' = c.params.length + 1 ∧
        ∃ copies events twin,
          (clone ⟨.query, 2⟩).run (empty.after lending) = ⟨copies, events, .ok twin⟩ ∧
          ∀ later : List Action, (∀ q c, .call q c ∈ later → 0 < q.index ∧ q.index < 3) →
            (copies.after later).text twin = copies.text twin := by
  have hclosed := reachable_lending.closed
  obtain ⟨hcompiles, hmarks, copies, events, twin, hclone, -, hunchanged, -⟩ :=
    agree_but_borrowed (r := ⟨.query, 2⟩) rfl values_lending hclosed stacked_lending.acyclic
      clean_lending (by decide)
  obtain ⟨c, hc⟩ := hcompiles _ rfl
  refine ⟨values_lending, hclosed, stacked_lending.acyclic, clean_lending, by decide, c, hc,
    (hmarks c hc).2.1, copies, events, twin, hclone, fun later hlater => hunchanged later ?_⟩
  intro q c hqc
  obtain ⟨hpos, hlt⟩ := hlater q c hqc
  refine .inr ⟨hlt, fun b hb hreaches => ?_⟩
  rw [List.mem_singleton.1 (show b ∈ [(⟨.query, 0⟩ : Ref)] from hb)] at hreaches
  have hle := (stacked_lending.of_reaches (Nat.le_refl 0) hreaches).2
  exact absurd hle (Nat.not_le_of_lt hpos)

/-- The query compiles to a text with a placeholder and to no value, and a call on the borrowed
query shows in its copy. -/
theorem borrowed_not_compiled :
    (empty.after lending).Reachable ∧ (empty.after lending).Acyclic ∧
      (∀ s ∈ (empty.after lending).statements, s.Clean) ∧
      (∀ r value, .call r (.parameter value) ∉ lending) ∧
      (empty.after lending).compile ⟨.query, 2⟩ =
        .ok ⟨"SELECT (SELECT SELECT * WHERE a = ?) as s", []⟩ ∧
      "SELECT (SELECT SELECT * WHERE a = ?) as s".toList.count '?' = 1 ∧
      ((clone ⟨.query, 2⟩).run (empty.after lending)).result = .ok ⟨.query, 4⟩ ∧
      (empty.after (lending ++ [.clone ⟨.query, 2⟩])).text ⟨.query, 4⟩ =
        .ok "SELECT (SELECT SELECT * WHERE a = ?) as s" ∧
      (empty.after (lending ++ [.clone ⟨.query, 2⟩, .call ⟨.query, 0⟩ .distinct])).text
          ⟨.query, 4⟩ = .ok "SELECT (SELECT SELECT distinct * WHERE a = ?) as s" := by
  refine ⟨reachable_lending, stacked_lending.acyclic, clean_lending, values_lending, ?_, by decide,
    rfl, rfl, rfl⟩
  change (empty.after lending).compileWithin 4 ⟨.query, 2⟩ = _
  simp only [compileWithin, Statement.compileFrom, Statement.boundInOrder_eq]
  rfl

end Store

end BoundQuery
