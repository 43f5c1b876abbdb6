import BoundQuery.Proofs.Result
import BoundQuery.Proofs.Value.Shown

/-!
# The pieces of a text

Where columns are texts or statements and branches are statements, the text of a statement is made
of pieces of its own and of the texts of these statements, whole and once for each time that they
stand there. So its characters are those of the pieces, in some order; what its own pieces are does
not depend on the other texts.

## Main definitions

* `Value.statement?`: the statement that a value is.
* `Statement.Flat`: columns are texts or statements, branches are statements.
* `Statement.taken`: the statements whose texts are taken in.
* `Resolver.blank`: what leaves the own pieces of a text.

## Main statements

* `Statement.Flat.perm_text`: the characters of a text.
-/

namespace BoundQuery

/-- The statement that a value is. -/
def Value.statement? : Value → Option Ref
  | statement r => some r
  | _ => none

def Resolver.blank : Resolver := fun _ => .ok ""

namespace Statement

/-- Columns are texts or statements, branches are statements, and a label is null or a text. -/
structure Flat (s : Statement) : Prop where
  label : s.label = .null ∨ ∃ t, s.label.text? = some t
  columns : ∀ v ∈ s.columns, (∃ t, v.text? = some t) ∨ ∃ r, v = .statement r
  branches : ∀ v ∈ s.branches, ∃ r, v = .statement r

/-- The statements whose texts are taken in, once for each time that they stand there. -/
def taken (s : Statement) : List Ref :=
  s.columns.filterMap Value.statement? ++ s.branches.filterMap Value.statement?

end Statement

theorem Value.display_congr_of_text? {v : Value} {t : String} (h : v.text? = some t)
    (f g : Resolver) : v.display f = v.display g := by
  cases v <;> first | rfl | cases h

theorem Value.statement?_of_text? {v : Value} {t : String} (h : v.text? = some t) :
    v.statement? = none := by
  cases v <;> first | rfl | cases h

/-- After one separator more, separated texts are texts after a separator each. -/
theorem append_intercalate (separator : String) {texts : List String} (h : texts ≠ []) :
    separator ++ separator.intercalate texts = String.join (texts.map (separator ++ ·)) := by
  induction texts with
  | nil => exact absurd rfl h
  | cons s rest ih =>
    cases rest with
    | nil => simp
    | cons t more =>
      rw [String.intercalate_cons_cons, String.append_assoc, ih (List.cons_ne_nil t more)]
      simp [String.append_assoc]

/-- The characters of texts and statements, each after leading words. -/
theorem perm_displays {vs : List Value}
    (hvs : ∀ v ∈ vs, (∃ t, v.text? = some t) ∨ ∃ r, v = .statement r) {f : Resolver}
    {xs : List String} (h : vs.mapM (·.display f) = .ok xs) (lead : String) :
    ∃ owns us, vs.mapM (·.display Resolver.blank) = .ok owns ∧
      (vs.filterMap Value.statement?).mapM f = .ok us ∧
      (String.join (xs.map (lead ++ ·))).toList.Perm
        ((String.join (owns.map (lead ++ ·))).toList ++ us.flatMap String.toList) := by
  induction vs generalizing xs with
  | nil =>
    cases h
    exact ⟨[], [], rfl, rfl, by simp⟩
  | cons v rest ih =>
    rw [List.mapM_cons] at h
    obtain ⟨x, hx, h⟩ := Result.bind_eq_ok.1 h
    obtain ⟨more, hmore, h⟩ := Result.bind_eq_ok.1 h
    cases h
    obtain ⟨owns, us, howns, hus, hperm⟩ :=
      ih (fun w hw => hvs w (List.mem_cons_of_mem v hw)) hmore
    rcases hvs v List.mem_cons_self with ⟨t, ht⟩ | ⟨r, rfl⟩
    · rw [Value.display_congr_of_text? ht f Resolver.blank] at hx
      refine ⟨x :: owns, us, by rw [List.mapM_cons, hx, howns]; rfl, ?_, ?_⟩
      · rw [List.filterMap_cons_none (Value.statement?_of_text? ht)]
        exact hus
      · simpa using (hperm.append_left x.toList).append_left lead.toList
    · have hr : f r = .ok x := hx
      refine ⟨"" :: owns, x :: us, by rw [List.mapM_cons, howns]; rfl, ?_, ?_⟩
      · change (r :: rest.filterMap Value.statement?).mapM f = _
        rw [List.mapM_cons, hr, hus]
        rfl
      · refine List.perm_iff_count.2 fun c => ?_
        have hcount := hperm.count_eq c
        simp only [List.map_cons, String.join_cons, List.flatMap_cons, String.toList_append,
          List.count_append, String.toList_empty, List.count_nil] at hcount ⊢
        omega

namespace Clause

variable {f : Resolver} {t : String}

/-- The characters of a clause of columns. -/
theorem perm_select {columns : List Value}
    (hcolumns : ∀ v ∈ columns, (∃ t, v.text? = some t) ∨ ∃ r, v = .statement r) {distinct : Bool}
    (ht : select f columns distinct = .ok t) :
    ∃ own us, select Resolver.blank columns distinct = .ok own ∧
      (columns.filterMap Value.statement?).mapM f = .ok us ∧
      t.toList.Perm (own.toList ++ us.flatMap String.toList) := by
  cases columns with
  | nil =>
    rw [select_nil] at ht
    exact ⟨t, [], by rw [select_nil, ht], rfl, by simp⟩
  | cons v rest =>
    obtain ⟨xs, hxs, ht⟩ := Result.bind_eq_ok.1 ht
    cases ht
    obtain ⟨owns, us, howns, hus, hperm⟩ := perm_displays hcolumns hxs ", "
    have hxs' : xs ≠ [] := List.ne_nil_of_length_eq_add_one (Result.mapM_eq_ok.1 hxs).length_eq.symm
    have howns' : owns ≠ [] :=
      List.ne_nil_of_length_eq_add_one (Result.mapM_eq_ok.1 howns).length_eq.symm
    rw [← append_intercalate _ hxs', ← append_intercalate _ howns', String.toList_append,
      String.toList_append, List.append_assoc, List.perm_append_left_iff] at hperm
    refine ⟨_, us, by simp only [select, howns]; rfl, hus, ?_⟩
    rw [String.toList_append, String.toList_append, List.append_assoc]
    exact hperm.append_left _

/-- The characters of a clause of branches. -/
theorem perm_union {branches : List Value} (hbranches : ∀ v ∈ branches, ∃ r, v = .statement r)
    (ht : union f branches = .ok t) :
    ∃ own us, union Resolver.blank branches = .ok own ∧
      (branches.filterMap Value.statement?).mapM f = .ok us ∧
      t.toList.Perm (own.toList ++ us.flatMap String.toList) := by
  obtain ⟨xs, hxs, ht⟩ := Result.bind_eq_ok.1 ht
  cases ht
  obtain ⟨owns, us, howns, hus, hperm⟩ :=
    perm_displays (fun v hv => .inr (hbranches v hv)) hxs " UNION "
  exact ⟨_, us, by simp only [union, howns]; rfl, hus, hperm⟩

end Clause

namespace Statement

variable {s : Statement} {f : Resolver} {t : String}

theorem mapM_taken {us vs : List String}
    (hus : (s.columns.filterMap Value.statement?).mapM f = .ok us)
    (hvs : (s.branches.filterMap Value.statement?).mapM f = .ok vs) :
    s.taken.mapM f = .ok (us ++ vs) := by
  rw [taken, List.mapM_append, hus, hvs]
  rfl

/-- The clauses of a text that is written. -/
theorem body_eq_ok :
    s.body f = .ok t ↔ ∃ columns sources joins rows groupings groups orderings limit branches,
      Clause.select f s.columns s.distinct = .ok columns ∧
      Clause.list " FROM " s.sources = .ok sources ∧
      Clause.fragments .null (s.joins.map Join.fragment) = .ok joins ∧
      Clause.fragments (.text Filter.rows.lead) (s.rowConditions.map Condition.fragment) =
        .ok rows ∧
      Clause.list " GROUP BY " s.groupings = .ok groupings ∧
      Clause.fragments (.text Filter.groups.lead) (s.groupConditions.map Condition.fragment) =
        .ok groups ∧
      Clause.list " ORDER BY " s.orderings = .ok orderings ∧
      Clause.limit f s.limit s.offset = .ok limit ∧
      Clause.union f s.branches = .ok branches ∧
      t = columns ++ sources ++ joins ++ rows ++ groupings ++ groups ++ orderings ++ limit ++
        branches := by
  constructor
  · intro ht
    obtain ⟨columns, hcolumns, ht⟩ := Result.bind_eq_ok.1 ht
    obtain ⟨sources, hsources, ht⟩ := Result.bind_eq_ok.1 ht
    obtain ⟨joins, hjoins, ht⟩ := Result.bind_eq_ok.1 ht
    obtain ⟨rows, hrows, ht⟩ := Result.bind_eq_ok.1 ht
    obtain ⟨groupings, hgroupings, ht⟩ := Result.bind_eq_ok.1 ht
    obtain ⟨groups, hgroups, ht⟩ := Result.bind_eq_ok.1 ht
    obtain ⟨orderings, horderings, ht⟩ := Result.bind_eq_ok.1 ht
    obtain ⟨limit, hlimit, ht⟩ := Result.bind_eq_ok.1 ht
    obtain ⟨branches, hbranches, ht⟩ := Result.bind_eq_ok.1 ht
    exact ⟨columns, sources, joins, rows, groupings, groups, orderings, limit, branches, hcolumns,
      hsources, hjoins, hrows, hgroupings, hgroups, horderings, hlimit, hbranches,
      (Except.ok.inj ht).symm⟩
  · rintro ⟨columns, sources, joins, rows, groupings, groups, orderings, limit, branches, hcolumns,
      hsources, hjoins, hrows, hgroupings, hgroups, horderings, hlimit, hbranches, rfl⟩
    simp only [body, hcolumns, hsources, hjoins, hrows, hgroupings, hgroups, horderings, hlimit,
      hbranches]
    rfl

theorem Flat.perm_body (hs : s.Flat) (ht : s.body f = .ok t) :
    ∃ own us, s.body Resolver.blank = .ok own ∧ s.taken.mapM f = .ok us ∧
      t.toList.Perm (own.toList ++ us.flatMap String.toList) := by
  obtain ⟨columns, sources, joins, rows, groupings, groups, orderings, limit, branches, hcolumns,
    hsources, hjoins, hrows, hgroupings, hgroups, horderings, hlimit, hbranches, rfl⟩ :=
    body_eq_ok.1 ht
  obtain ⟨ownColumns, us, hown, hus, hperm⟩ := Clause.perm_select hs.columns hcolumns
  obtain ⟨ownBranches, vs, hown', hvs, hperm'⟩ := Clause.perm_union hs.branches hbranches
  rw [Clause.limit_congr (g := Resolver.blank)] at hlimit
  have hbody := body_eq_ok.2 ⟨ownColumns, sources, joins, rows, groupings, groups, orderings,
    limit, ownBranches, hown, hsources, hjoins, hrows, hgroupings, hgroups, horderings, hlimit,
    hown', rfl⟩
  refine ⟨_, us ++ vs, hbody, mapM_taken hus hvs, List.perm_iff_count.2 fun c => ?_⟩
  have hcount := hperm.count_eq c
  have hcount' := hperm'.count_eq c
  simp only [String.toList_append, List.count_append, List.flatMap_append] at hcount hcount' ⊢
  omega

/-- The characters of a text are those of its own pieces and of the texts that it takes in. -/
theorem Flat.perm_text (hs : s.Flat) {variant : Variant} (ht : s.text f variant = .ok t) :
    ∃ own us, s.text Resolver.blank variant = .ok own ∧ s.taken.mapM f = .ok us ∧
      t.toList.Perm (own.toList ++ us.flatMap String.toList) := by
  cases variant with
  | query => exact hs.perm_body ht
  | subselect =>
    obtain ⟨body, hbody, ht⟩ := Result.bind_eq_ok.1 ht
    obtain ⟨label, hlabel, ht⟩ := Result.bind_eq_ok.1 ht
    cases ht
    have hsame : s.label.display f = s.label.display Resolver.blank := by
      rcases hs.label with hnull | ⟨t, ht⟩
      · rw [hnull]
        rfl
      · exact Value.display_congr_of_text? ht _ _
    rw [hsame] at hlabel
    obtain ⟨own, us, hown, hus, hperm⟩ := hs.perm_body hbody
    refine ⟨"(" ++ own ++ ") as " ++ label, us, by simp only [text, hown, hlabel]; rfl, hus,
      List.perm_iff_count.2 fun c => ?_⟩
    have hcount := hperm.count_eq c
    simp only [String.toList_append, List.count_append] at hcount ⊢
    omega

end Statement

end BoundQuery
