import BoundQuery.Proofs.Store.Separate

/-!
# Copies are written and compiled alike

A copy has other columns and branches than its statement: in place of subselects and branches it
has their copies. Where these are written and compiled like the statements that they are copies of,
so is the copy, at any depth and whatever is added to the store later.

## Main definitions

* `Value.Mirrored`: values that are the same, or statements that a relation takes to each other.
* `Store.Mirrors`: statements that are written and compiled alike.
* `Store.Copied`: a statement and its copy, with parts that mirror each other.

## Main statements

* `Statement.text_copy`, `Statement.compileFrom_copy`: a copy with mirrored parts.
* `Store.Copied.mirrors`: a copy is written and compiled like its statement.
* `Store.ends_clone_copied`: copying makes such a copy.
-/

namespace BoundQuery

/-- Two values are the same, or statements that `R` takes to each other. -/
def Value.Mirrored (R : Ref → Ref → Prop) (v w : Value) : Prop :=
  w = v ∨ ∃ r q, v = .statement r ∧ w = .statement q ∧ R r q

section Mirrored

variable {R : Ref → Ref → Prop} {v w : Value}

theorem CopiedColumn.mirrored (h : CopiedColumn R v w) : v.Mirrored R w := by
  unfold CopiedColumn at h
  split at h
  · next r hr =>
    obtain ⟨q, hq, hR⟩ := h
    exact .inr ⟨r, q, (Value.subselect?_eq_some.1 hr).1, hq, hR⟩
  · exact .inl h

theorem CopiedBranch.mirrored (h : CopiedBranch R v w) : v.Mirrored R w := .inr h

theorem Value.Mirrored.display_eq (h : v.Mirrored R w) {f : Resolver}
    (hf : ∀ r q, R r q → f q = f r) : w.display f = v.display f := by
  rcases h with rfl | ⟨r, q, rfl, rfl, hR⟩
  · rfl
  · exact hf r q hR

/-- Of two mirrored values, both are subselects or neither is. -/
theorem Value.Mirrored.rel_subselect? (h : v.Mirrored R w)
    (hR : ∀ r q, R r q → q.variant = r.variant) :
    Option.Rel (fun r q => q = r ∨ R r q) v.subselect? w.subselect? := by
  rcases h with rfl | ⟨r, q, rfl, rfl, h⟩
  · rcases w.subselect? with _ | r
    · exact .none
    · exact .some (.inl rfl)
  · have hvariant := hR r q h
    rcases r with ⟨_ | _, i⟩ <;> rcases q with ⟨_ | _, j⟩ <;> cases hvariant
    · exact .none
    · exact .some (.inr h)

end Mirrored

/-- Columns that are displayed alike one by one make up the same clause. -/
theorem Clause.select_congr_of_forall₂ {f : Resolver} {vs ws : List Value}
    (h : List.Forall₂ (fun v w => w.display f = v.display f) vs ws) (distinct : Bool) :
    select f ws distinct = select f vs distinct := by
  have hdisplay := Result.mapM_congr_of_forall₂ h
  cases h with
  | nil => rfl
  | cons _ _ => simp only [select, hdisplay]

namespace Statement

variable {R : Ref → Ref → Prop} {s : Statement} {columns branches : List Value}

/-- A copy with mirrored parts has the same text. -/
theorem text_copy (hcolumns : List.Forall₂ (Value.Mirrored R) s.columns columns)
    (hbranches : List.Forall₂ (Value.Mirrored R) s.branches branches) {f : Resolver}
    (hf : ∀ r q, R r q → f q = f r) (variant : Variant) :
    (s.copy columns branches).text f variant = s.text f variant := by
  have hselect : Clause.select f columns s.distinct = Clause.select f s.columns s.distinct :=
    Clause.select_congr_of_forall₂ (hcolumns.imp fun _ _ h => h.display_eq hf) s.distinct
  have hunion : Clause.union f branches = Clause.union f s.branches := by
    rw [Clause.union, Clause.union,
      Result.mapM_congr_of_forall₂ (hbranches.imp fun _ _ h => h.display_eq hf)]
  have hbody : (s.copy columns branches).body f = s.body f := by
    simp only [body, copy, turnTo, hselect, hunion]
  cases variant with
  | query => exact hbody
  | subselect =>
    simp only [text, hbody]
    rfl

/-- A copy with mirrored parts compiles to the same. -/
theorem compileFrom_copy (hcolumns : List.Forall₂ (Value.Mirrored R) s.columns columns)
    (hbranches : List.Forall₂ (Value.Mirrored R) s.branches branches)
    {compile : Ref → Except Failure Compiled}
    (hvariant : ∀ r q, R r q → q.variant = r.variant)
    (hcompile : ∀ r q, R r q → compile q = compile r) (text : Except Failure String) :
    (s.copy columns branches).compileFrom compile text = s.compileFrom compile text := by
  have hsubselects : List.Forall₂ (fun r q => q = r ∨ R r q)
      (s.columns.filterMap Value.subselect?) (columns.filterMap Value.subselect?) :=
    List.rel_filterMap (fun _ _ h => h.rel_subselect? hvariant) hcolumns
  have hcolumn : (columns.filterMap Value.subselect?).mapM compile =
      (s.columns.filterMap Value.subselect?).mapM compile := by
    refine Result.mapM_congr_of_forall₂ (hsubselects.imp ?_)
    rintro r q (rfl | h)
    · rfl
    · exact hcompile r q h
  have hbranch : (branches.mapM fun v => (v.branch "build") >>= compile) =
      s.branches.mapM fun v => (v.branch "build") >>= compile := by
    refine Result.mapM_congr_of_forall₂ (hbranches.imp ?_)
    rintro v w (rfl | ⟨r, q, rfl, rfl, h⟩)
    · rfl
    · exact hcompile r q h
  simp only [compileFrom, subselects, copy, turnTo, hcolumn, hbranch]
  rfl

end Statement

namespace Store

/-- Whatever is added to a store, two statements of one shape are written and compiled alike. -/
structure Mirrors (store : Store) (r q : Ref) : Prop where
  variant_eq : q.variant = r.variant
  textWithin_eq : ∀ {later}, store.Extends later → ∀ n, later.textWithin n q = later.textWithin n r
  compileWithin_eq : ∀ {later}, store.Extends later → ∀ n,
    later.compileWithin n q = later.compileWithin n r

theorem Mirrors.extends {store later : Store} {r q : Ref} (h : store.Mirrors r q)
    (hext : store.Extends later) : later.Mirrors r q :=
  ⟨h.variant_eq, fun hlater => h.textWithin_eq (hext.trans hlater),
    fun hlater => h.compileWithin_eq (hext.trans hlater)⟩

/-- One statement of a store is the copy of another, and their parts mirror each other. -/
def Copied (store : Store) (r q : Ref) : Prop :=
  q.variant = r.variant ∧ ∃ s columns branches,
    store.get? r = some s ∧ store.get? q = some (s.copy columns branches) ∧
      List.Forall₂ (CopiedColumn store.Mirrors) s.columns columns ∧
      List.Forall₂ (CopiedBranch store.Mirrors) s.branches branches

theorem Copied.extends {store later : Store} {r q : Ref} (h : store.Copied r q)
    (hext : store.Extends later) : later.Copied r q := by
  obtain ⟨hvariant, s, columns, branches, hr, hq, hcolumns, hbranches⟩ := h
  refine ⟨hvariant, s, columns, branches, hext.get?_of_eq_some hr, hext.get?_of_eq_some hq, ?_, ?_⟩
  · exact hcolumns.imp fun _ _ h => h.imp fun _ _ hm => hm.extends hext
  · exact hbranches.imp fun _ _ h => h.imp fun _ _ hm => hm.extends hext

/-- A copy is written and compiled like its statement. -/
theorem Copied.mirrors {store : Store} {r q : Ref} (h : store.Copied r q) :
    store.Mirrors r q := by
  obtain ⟨hvariant, s, columns, branches, hr, hq, hcolumns, hbranches⟩ := h
  replace hcolumns := hcolumns.imp fun _ _ h => h.mirrored
  replace hbranches := hbranches.imp fun _ _ h => h.mirrored
  have htext : ∀ {later}, store.Extends later → ∀ n,
      later.textWithin n q = later.textWithin n r := by
    intro later hext n
    cases n with
    | zero => rfl
    | succ n =>
      rw [textWithin_succ (hext.get?_of_eq_some hr), textWithin_succ (hext.get?_of_eq_some hq),
        hvariant]
      exact s.text_copy hcolumns hbranches (fun _ _ hm => hm.textWithin_eq hext n) _
  refine ⟨hvariant, htext, ?_⟩
  intro later hext n
  cases n with
  | zero => rfl
  | succ n =>
    have hsame : later.text q = later.text r := htext hext _
    rw [compileWithin_succ (hext.get?_of_eq_some hr), compileWithin_succ (hext.get?_of_eq_some hq),
      hsame]
    exact s.compileFrom_copy hcolumns hbranches (fun _ _ hm => hm.variant_eq)
      (fun _ _ hm => hm.compileWithin_eq hext n) _

/-- Copying makes a copy whose parts mirror those of its statement. -/
theorem ends_clone_copied (r : Ref) (store : Store) :
    Run.Ends (clone r) store (fun t => store.Extends t) fun twin t => t.Copied r twin := by
  have hends := ends_clone (P := fun _ => True) (Q := fun r q t => t.Copied r q)
    (fun hext h => h.extends hext) ?_ r store trivial
  · exact ⟨hends.1.2, hends.2⟩
  · intro t r s columns branches _ hs hcolumns hbranches
    have hext := extends_add t (s.copy columns branches)
    refine ⟨trivial, rfl, s, columns, branches, hext.get?_of_eq_some hs, ?_, ?_, ?_⟩
    · simp [get?, add, size]
    · exact hcolumns.imp fun _ _ h => h.imp fun _ _ hc => hc.mirrors.extends hext
    · exact hbranches.imp fun _ _ h => h.imp fun _ _ hc => hc.mirrors.extends hext

end Store

end BoundQuery
