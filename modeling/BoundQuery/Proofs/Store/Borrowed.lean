import BoundQuery.Proofs.Statement.Parts
import BoundQuery.Proofs.Store.Mirror

/-!
# Borrowed queries

A query that stands as a column is borrowed: its text is taken in like that of a subselect, but it
is neither compiled nor copied with the statement. A copy therefore reaches new statements, the
queries that its statement borrows, and what these reach.

## Main definitions

* `Statement.borrowed`, `Statement.owned`: the queries among the columns, and the other statements
  that are taken in.
* `Store.borrowed`: the queries that a statement and what it owns borrow.

## Main statements

* `Store.clone_reaches`: what a copy reaches.
* `Store.text_twin_after`: its text stays what it is while nothing is called that it reaches.
-/

namespace BoundQuery

/-- The query that a value is. -/
def Value.borrowed? : Value → Option Ref
  | statement ⟨.query, index⟩ => some ⟨.query, index⟩
  | _ => none

theorem Value.borrowed?_eq_some {v : Value} {r : Ref} :
    v.borrowed? = some r ↔ v = .statement r ∧ r.variant = .query := by
  rcases r with ⟨variant, index⟩
  constructor
  · intro h
    unfold borrowed? at h
    split at h
    · cases h
      exact ⟨rfl, rfl⟩
    · cases h
  · rintro ⟨rfl, hvariant⟩
    cases hvariant
    rfl

theorem Value.statement?_eq_some {v : Value} {r : Ref} :
    v.statement? = some r ↔ v = .statement r := by
  cases v <;> simp [statement?]

namespace Statement

/-- The queries among the columns. -/
def borrowed (s : Statement) : List Ref := s.columns.filterMap Value.borrowed?

/-- The subselects among the columns, and the branches. -/
def owned (s : Statement) : List Ref :=
  s.subselects ++ s.branches.filterMap Value.statement?

variable {s : Statement} {columns branches : List Value} {q : Ref}

theorem mem_borrowed : q ∈ s.borrowed ↔ .statement q ∈ s.columns ∧ q.variant = .query := by
  simp only [borrowed, List.mem_filterMap, Value.borrowed?_eq_some]
  constructor
  · rintro ⟨v, hv, rfl, hvariant⟩
    exact ⟨hv, hvariant⟩
  · rintro ⟨hv, hvariant⟩
    exact ⟨_, hv, rfl, hvariant⟩

theorem mem_owned :
    q ∈ s.owned ↔
      .statement q ∈ s.columns ∧ q.variant = .subselect ∨ .statement q ∈ s.branches := by
  simp only [owned, subselects, List.mem_append, List.mem_filterMap, Value.subselect?_eq_some,
    Value.statement?_eq_some]
  constructor
  · rintro (⟨v, hv, rfl, hvariant⟩ | ⟨v, hv, rfl⟩)
    · exact .inl ⟨hv, hvariant⟩
    · exact .inr hv
  · rintro (⟨hv, hvariant⟩ | hv)
    · exact .inl ⟨_, hv, rfl, hvariant⟩
    · exact .inr ⟨_, hv, rfl⟩

theorem mem_shown_of_mem_borrowed (h : q ∈ s.borrowed) : q ∈ s.shown :=
  mem_shown.2 (.inl ⟨_, (mem_borrowed.1 h).1, List.mem_cons_self⟩)

theorem mem_shown_of_mem_owned (h : q ∈ s.owned) : q ∈ s.shown := by
  rcases mem_owned.1 h with ⟨hv, -⟩ | hv
  · exact mem_shown.2 (.inl ⟨_, hv, List.mem_cons_self⟩)
  · exact mem_shown_of_mem_branches hv

/-- What is taken in is borrowed or owned. -/
theorem perm_taken (s : Statement) : s.taken.Perm (s.borrowed ++ s.owned) := by
  have hcolumns : ∀ vs : List Value, (vs.filterMap Value.statement?).Perm
      (vs.filterMap Value.borrowed? ++ vs.filterMap Value.subselect?) := by
    intro vs
    induction vs with
    | nil => exact .refl _
    | cons v rest ih =>
      cases v with
      | statement r =>
        rcases r with ⟨_ | _, index⟩
        · exact ih.cons _
        · exact (ih.cons _).trans List.perm_middle.symm
      | _ => exact ih
  rw [taken, owned, ← List.append_assoc]
  exact (hcolumns s.columns).append_right _

/-- What a flat statement shows is borrowed or owned. -/
theorem Flat.mem_taken_of_mem_shown (hs : s.Flat) (hq : q ∈ s.shown) : q ∈ s.taken := by
  rcases mem_shown.1 hq with ⟨v, hv, hq⟩ | ⟨v, hv, hq⟩ | hq
  · rcases hs.columns v hv with ⟨t, ht⟩ | ⟨r, rfl⟩
    · rw [Value.shown_of_text? ht] at hq
      cases hq
    · rw [List.mem_singleton.1 hq]
      exact List.mem_append_left _ (List.mem_filterMap.2 ⟨_, hv, rfl⟩)
  · obtain ⟨r, rfl⟩ := hs.branches v hv
    rw [List.mem_singleton.1 hq]
    exact List.mem_append_right _ (List.mem_filterMap.2 ⟨_, hv, rfl⟩)
  · rcases hs.label with hnull | ⟨t, ht⟩
    · rw [hnull] at hq
      cases hq
    · rw [Value.shown_of_text? ht] at hq
      cases hq

/-! ## Copies -/

section Copy

variable {Q : Ref → Ref → Prop}

/-- What a statement owns is copied, and its copy shows the copies. -/
theorem exists_copied_of_mem_owned
    (hcolumns : List.Forall₂ (CopiedColumn Q) s.columns columns)
    (hbranches : List.Forall₂ (CopiedBranch Q) s.branches branches) (hq : q ∈ s.owned) :
    ∃ p ∈ (s.copy columns branches).shown, Q q p := by
  rcases mem_owned.1 hq with ⟨hv, hvariant⟩ | hv
  · obtain ⟨w, hw, hcopied⟩ := exists_mem_of_forall₂ hcolumns.flip hv
    have hsub : (Value.statement q).subselect? = some q :=
      Value.subselect?_eq_some.2 ⟨rfl, hvariant⟩
    simp only [hsub] at hcopied
    obtain ⟨p, rfl, hp⟩ := hcopied
    exact ⟨p, mem_shown.2 (.inl ⟨_, hw, List.mem_cons_self⟩), hp⟩
  · obtain ⟨w, hw, r, p, hr, rfl, hp⟩ := exists_mem_of_forall₂ hbranches.flip hv
    cases hr
    exact ⟨p, mem_shown_of_mem_branches hw, hp⟩

/-- What a statement borrows is not copied, and its copy shows it too. -/
theorem mem_shown_copy_of_mem_borrowed
    (hcolumns : List.Forall₂ (CopiedColumn Q) s.columns columns) (hq : q ∈ s.borrowed) :
    q ∈ (s.copy columns branches).shown := by
  obtain ⟨hv, hvariant⟩ := mem_borrowed.1 hq
  obtain ⟨w, hw, hcopied⟩ := exists_mem_of_forall₂ hcolumns.flip hv
  have hnone : (Value.statement q).subselect? = none := by
    rw [Option.eq_none_iff_forall_ne_some]
    intro r hr
    obtain ⟨hqr, hr⟩ := Value.subselect?_eq_some.1 hr
    cases hqr
    rw [hvariant] at hr
    cases hr
  simp only [hnone] at hcopied
  rw [hcopied] at hw
  exact mem_shown.2 (.inl ⟨_, hw, List.mem_cons_self⟩)

/-- What a copy shows is borrowed by the statement, or the copy of what it owns. -/
theorem Flat.of_mem_shown_copy (hs : s.Flat)
    (hcolumns : List.Forall₂ (CopiedColumn Q) s.columns columns)
    (hbranches : List.Forall₂ (CopiedBranch Q) s.branches branches)
    (hq : q ∈ (s.copy columns branches).shown) :
    q ∈ s.borrowed ∨ ∃ p ∈ s.owned, Q p q := by
  rcases mem_shown.1 hq with ⟨w, hw, hq⟩ | ⟨w, hw, hq⟩ | hq
  · obtain ⟨v, hv, hcopied⟩ := exists_mem_of_forall₂ hcolumns hw
    unfold CopiedColumn at hcopied
    split at hcopied
    · next r hr =>
      obtain ⟨p, rfl, hp⟩ := hcopied
      obtain ⟨rfl, hvariant⟩ := Value.subselect?_eq_some.1 hr
      rw [List.mem_singleton.1 hq]
      exact .inr ⟨r, mem_owned.2 (.inl ⟨hv, hvariant⟩), hp⟩
    · next hnone =>
      subst hcopied
      rcases hs.columns w hv with ⟨t, ht⟩ | ⟨r, rfl⟩
      · rw [Value.shown_of_text? ht] at hq
        cases hq
      · rw [List.mem_singleton.1 hq]
        refine .inl (mem_borrowed.2 ⟨hv, ?_⟩)
        rcases r with ⟨_ | _, index⟩
        · rfl
        · cases hnone
  · obtain ⟨v, hv, r, p, rfl, rfl, hp⟩ := exists_mem_of_forall₂ hbranches hw
    rw [List.mem_singleton.1 hq]
    exact .inr ⟨r, mem_owned.2 (.inr hv), hp⟩
  · rcases hs.label with hnull | ⟨t, ht⟩
    · change q ∈ s.label.shown at hq
      rw [hnull] at hq
      cases hq
    · change q ∈ s.label.shown at hq
      rw [Value.shown_of_text? ht] at hq
      cases hq

theorem Flat.copy (hs : s.Flat)
    (hcolumns : List.Forall₂ (CopiedColumn fun r q => q.variant = r.variant) s.columns columns)
    (hbranches : List.Forall₂ (CopiedBranch fun r q => q.variant = r.variant) s.branches branches) :
    (s.copy columns branches).Flat := by
  refine ⟨hs.label, ?_, ?_⟩
  · intro w hw
    obtain ⟨v, hv, hcopied⟩ := exists_mem_of_forall₂ hcolumns hw
    rcases hcopied.eq_or_subselect with rfl | ⟨p, hp⟩
    · exact hs.columns w hv
    · exact .inr ⟨p, (Value.subselect?_eq_some.1 hp).1⟩
  · intro w hw
    obtain ⟨v, hv, r, p, hvr, hwp, -⟩ := exists_mem_of_forall₂ hbranches hw
    exact ⟨p, hwp⟩

end Copy

end Statement

namespace Store

/-- What a statement, with parts of it at most so deep, and what it owns borrow. -/
def borrowedWithin (store : Store) : Nat → Ref → List Ref
  | 0, _ => []
  | depth + 1, r =>
    match store.get? r with
    | some s => s.borrowed ++ s.owned.flatMap (borrowedWithin store depth)
    | none => []

/-- The queries that a statement and what it owns borrow, once for each time that they are
written. -/
def borrowed (store : Store) (r : Ref) : List Ref := store.borrowedWithin (store.size + 1) r

section

variable {store later : Store} {r b : Ref}

theorem borrowedWithin_succ {s : Statement} (hs : store.get? r = some s) (n : Nat) :
    store.borrowedWithin (n + 1) r =
      s.borrowed ++ s.owned.flatMap (store.borrowedWithin n) := by
  simp only [borrowedWithin, hs]

theorem borrowedWithin_succ_of_none (hr : store.get? r = none) (n : Nat) :
    store.borrowedWithin (n + 1) r = [] := by
  simp only [borrowedWithin, hr]

theorem mem_borrowedWithin_succ {n : Nat} :
    b ∈ store.borrowedWithin (n + 1) r ↔ ∃ s, store.get? r = some s ∧
      (b ∈ s.borrowed ∨ ∃ q ∈ s.owned, b ∈ store.borrowedWithin n q) := by
  cases hs : store.get? r with
  | none => simp [borrowedWithin_succ_of_none hs]
  | some s => simp [borrowedWithin_succ hs]

/-- What is borrowed is reached. -/
theorem reaches_of_mem_borrowedWithin {n : Nat} (h : b ∈ store.borrowedWithin n r) :
    store.Reaches r.index b.index := by
  induction n generalizing r with
  | zero => cases h
  | succ n ih =>
    obtain ⟨s, hs, hb | ⟨q, hq, hb⟩⟩ := mem_borrowedWithin_succ.1 h
    · exact .single (shows_of_get? hs (Statement.mem_shown_of_mem_borrowed hb))
    · exact .head (shows_of_get? hs (Statement.mem_shown_of_mem_owned hq)) (ih hb)

theorem Closed.lt_size_of_mem_borrowedWithin (h : store.Closed) (hr : r.index < store.size)
    {n : Nat} (hb : b ∈ store.borrowedWithin n r) : b.index < store.size :=
  h.lt_size_of_reaches hr (reaches_of_mem_borrowedWithin hb)

theorem borrowedWithin_congr (n : Nat)
    (h : ∀ j, store.Reaches r.index j → later.statements[j]? = store.statements[j]?) :
    later.borrowedWithin n r = store.borrowedWithin n r := by
  induction n generalizing r with
  | zero => rfl
  | succ n ih =>
    have hr : later.get? r = store.get? r := h r.index .refl
    cases hs : store.get? r with
    | none => rw [borrowedWithin_succ_of_none hs, borrowedWithin_succ_of_none (hr.trans hs)]
    | some s =>
      rw [borrowedWithin_succ hs, borrowedWithin_succ (hr.trans hs)]
      refine congrArg _ (List.flatMap_congr fun q hq => ih fun j hj => h j (.head ?_ hj))
      exact shows_of_get? hs (Statement.mem_shown_of_mem_owned hq)

/-- What is borrowed does not depend on how deep parts may go, once that is deep enough. -/
theorem borrowedWithin_of_within {n m : Nat} (hw : store.Within n r.index) (hle : n ≤ m) :
    store.borrowedWithin m r = store.borrowedWithin n r := by
  induction n generalizing m r with
  | zero => exact hw.elim
  | succ n ih =>
    obtain ⟨m, rfl⟩ : ∃ k, m = k + 1 := ⟨m - 1, by omega⟩
    cases hs : store.get? r with
    | none => rw [borrowedWithin_succ_of_none hs, borrowedWithin_succ_of_none hs]
    | some s =>
      rw [borrowedWithin_succ hs, borrowedWithin_succ hs]
      refine congrArg _ (List.flatMap_congr fun q hq => ih (hw _ ?_) (by omega))
      exact shows_of_get? hs (Statement.mem_shown_of_mem_owned hq)

theorem borrowedWithin_subset {n m : Nat} (hle : n ≤ m) (h : b ∈ store.borrowedWithin n r) :
    b ∈ store.borrowedWithin m r := by
  induction n generalizing m r with
  | zero => cases h
  | succ n ih =>
    obtain ⟨m, rfl⟩ : ∃ k, m = k + 1 := ⟨m - 1, by omega⟩
    obtain ⟨s, hs, hb⟩ := mem_borrowedWithin_succ.1 h
    refine mem_borrowedWithin_succ.2 ⟨s, hs, hb.imp_right ?_⟩
    rintro ⟨q, hq, hb⟩
    exact ⟨q, hq, ih (by omega) hb⟩

/-- Whatever is borrowed at some depth is borrowed. -/
theorem Acyclic.mem_borrowed (h : store.Acyclic) {n : Nat} (hb : b ∈ store.borrowedWithin n r) :
    b ∈ store.borrowed r := by
  have hw := within_of_acyclic h r.index
  rw [borrowed, ← borrowedWithin_of_within hw (Nat.le_max_right n _)]
  exact borrowedWithin_subset (Nat.le_max_left n _) hb

/-- What an old statement borrows it borrowed before. -/
theorem Closed.borrowedWithin_of_extends (h : store.Closed) (hext : store.Extends later)
    (hr : r.index < store.size) (n : Nat) :
    later.borrowedWithin n r = store.borrowedWithin n r :=
  borrowedWithin_congr n fun _ hj => hext.getElem?_eq (h.lt_size_of_reaches hr hj)

end

/-! ## What a copy reaches -/

/-- A copy that reaches, beside new statements, what its statement borrows and what that reaches,
whatever is added later. -/
structure CopyReaches (start : Nat) (store : Store) (r q : Ref) : Prop where
  variant_eq : q.variant = r.variant
  start_le : start ≤ q.index
  lt_size : q.index < store.size
  of_borrowed : ∀ {later}, store.Extends later → ∀ n, ∀ b ∈ later.borrowedWithin n r,
    later.Reaches q.index b.index
  new_or_borrowed : ∀ {later}, store.Extends later → ∀ j, later.Reaches q.index j →
    (start ≤ j ∧ j < store.size) ∨
      ∃ n, ∃ b ∈ later.borrowedWithin n r, later.Reaches b.index j

theorem CopyReaches.extends {start : Nat} {store later : Store} {r q : Ref}
    (h : CopyReaches start store r q) (hext : store.Extends later) :
    CopyReaches start later r q where
  variant_eq := h.variant_eq
  start_le := h.start_le
  lt_size := h.lt_size.trans_le hext.size_le
  of_borrowed hlater := h.of_borrowed (hext.trans hlater)
  new_or_borrowed hlater j hj :=
    (h.new_or_borrowed (hext.trans hlater) j hj).imp_left fun hnew =>
      ⟨hnew.1, hnew.2.trans_le hext.size_le⟩

/-- A copy of a statement whose owned statements have such copies is such a copy. -/
theorem copyReaches_add {start : Nat} {store : Store} {r : Ref} {s : Statement}
    {columns branches : List Value} (hs : store.get? r = some s) (hflat : s.Flat)
    (hstart : start ≤ store.size)
    (hcolumns : List.Forall₂ (CopiedColumn (CopyReaches start store)) s.columns columns)
    (hbranches : List.Forall₂ (CopiedBranch (CopyReaches start store)) s.branches branches) :
    CopyReaches start (store.add (s.copy columns branches)) r ⟨r.variant, store.size⟩ := by
  have hadd := extends_add store (s.copy columns branches)
  have hcopy : (store.add (s.copy columns branches)).get? ⟨r.variant, store.size⟩ =
      some (s.copy columns branches) := by
    simp [get?, add, size]
  refine ⟨rfl, hstart, by simp, ?_, ?_⟩
  · intro later hext n b hb
    have hget := hext.get?_of_eq_some hcopy
    cases n with
    | zero => cases hb
    | succ n =>
      rw [borrowedWithin_succ ((hadd.trans hext).get?_of_eq_some hs)] at hb
      rcases List.mem_append.1 hb with hb | hb
      · exact .single (shows_of_get? hget (Statement.mem_shown_copy_of_mem_borrowed hcolumns hb))
      · obtain ⟨p, hp, hb⟩ := List.mem_flatMap.1 hb
        obtain ⟨q, hq, hpq⟩ := Statement.exists_copied_of_mem_owned hcolumns hbranches hp
        exact .head (shows_of_get? hget hq) (hpq.of_borrowed (hadd.trans hext) n b hb)
  · intro later hext j hj
    have hget := hext.get?_of_eq_some hcopy
    rcases Relation.ReflTransGen.cases_head hj with rfl | ⟨k, ⟨t, ht, q, hq, rfl⟩, hj⟩
    · exact .inl ⟨hstart, by simp⟩
    · obtain rfl : t = s.copy columns branches := Option.some.inj (ht.symm.trans hget)
      have hold := (hadd.trans hext).get?_of_eq_some hs
      rcases hflat.of_mem_shown_copy hcolumns hbranches hq with hb | ⟨p, hp, hpq⟩
      · exact .inr ⟨1, q, mem_borrowedWithin_succ.2 ⟨s, hold, .inl hb⟩, hj⟩
      · rcases hpq.new_or_borrowed (hadd.trans hext) j hj with hnew | ⟨n, b, hb, hbj⟩
        · exact .inl ⟨hnew.1, hnew.2.trans_le hadd.size_le⟩
        · exact .inr ⟨n + 1, b, mem_borrowedWithin_succ.2 ⟨s, hold, .inr ⟨p, hp, hb⟩⟩, hbj⟩

theorem ends_clone_reaches {store : Store} (hflat : ∀ s ∈ store.statements, s.Flat) (r : Ref) :
    Run.Ends (clone r) store
      (fun t => ((∀ s ∈ t.statements, s.Flat) ∧ store.size ≤ t.size) ∧ store.Extends t)
      fun twin t => CopyReaches store.size t r twin := by
  refine ends_clone (P := fun t => (∀ s ∈ t.statements, s.Flat) ∧ store.size ≤ t.size)
    (Q := fun r q t => CopyReaches store.size t r q) (fun hext h => h.extends hext) ?_ r store
    ⟨hflat, Nat.le_refl _⟩
  rintro t r s columns branches ⟨ht, hle⟩ hs hcolumns hbranches
  have hts : s.Flat := ht s (List.mem_of_getElem? hs)
  refine ⟨⟨?_, ?_⟩, copyReaches_add hs hts hle hcolumns hbranches⟩
  · intro u hu
    rcases List.mem_append.1 hu with hu | hu
    · exact ht u hu
    · rw [List.mem_singleton.1 hu]
      exact hts.copy (hcolumns.imp fun _ _ h => h.imp fun _ _ hq => hq.variant_eq)
        (hbranches.imp fun _ _ h => h.imp fun _ _ hq => hq.variant_eq)
  · rw [size_add]
    exact Nat.le_succ_of_le hle

/-- A flat statement can be copied. Its copy mirrors it and reaches what it borrows; all else that
the copy reaches is new, or reached from there. -/
theorem clone_reaches {store : Store} (hclosed : store.Closed) (hacyclic : store.Acyclic)
    (hflat : ∀ s ∈ store.statements, s.Flat) {r : Ref} (hr : r.index < store.size) :
    ∃ copies events twin, (clone r).run store = ⟨copies, events, .ok twin⟩ ∧
      store.Extends copies ∧ (∀ s ∈ copies.statements, s.Flat) ∧ copies.Mirrors r twin ∧
      (∀ b ∈ store.borrowed r, copies.Reaches twin.index b.index) ∧
      ∀ j, copies.Reaches twin.index j → (store.size ≤ j ∧ j < copies.size) ∨
        ∃ b ∈ store.borrowed r, store.Reaches b.index j := by
  obtain ⟨twin, htwin, -⟩ := returns_cloneWithin_of_branches hclosed
    (fun s hs => (hflat s hs).branches) (within_of_acyclic hacyclic r.index) hr (.refl store)
  rw [← run_clone_of_ok htwin] at htwin
  obtain ⟨⟨⟨hflat', -⟩, hext⟩, hends⟩ := ends_clone_reaches hflat r
  have hreaches := hends twin htwin
  have hmirrors := ((ends_clone_copied r store).2 twin htwin).mirrors
  have hborrowed := hclosed.borrowedWithin_of_extends hext hr
  refine ⟨((clone r).run store).state, ((clone r).run store).events, twin, ?_, hext, hflat',
    hmirrors, ?_, ?_⟩
  · rw [← htwin]
  · intro b hb
    refine hreaches.of_borrowed (.refl _) (store.size + 1) b ?_
    rw [hborrowed]
    exact hb
  · intro j hj
    refine (hreaches.new_or_borrowed (.refl _) j hj).imp_right ?_
    rintro ⟨n, b, hb, hbj⟩
    rw [hborrowed] at hb
    have hb' := hclosed.lt_size_of_mem_borrowedWithin hr hb
    exact ⟨b, hacyclic.mem_borrowed hb, hclosed.reaches_of_extends hext hb' hbj⟩

/-- The text of a copy is that of its statement, and stays so while nothing is called that the copy
reaches. -/
theorem text_twin_after {store copies : Store} (hclosed : store.Closed) (hacyclic : store.Acyclic)
    (hext : store.Extends copies) {r twin : Ref} (hr : r.index < store.size)
    (hmirrors : copies.Mirrors r twin) {actions : List Action}
    (h : ∀ j, copies.Reaches twin.index j →
      (copies.after actions).statements[j]? = copies.statements[j]?) :
    (copies.after actions).text twin = store.text r := by
  let depth := (copies.after actions).size + 1
  have hle : store.size + 1 ≤ depth :=
    Nat.succ_le_succ (hext.size_le.trans (size_le_after copies actions))
  calc (copies.after actions).text twin
    _ = copies.textWithin depth twin := textWithin_congr depth h
    _ = copies.textWithin depth r := hmirrors.textWithin_eq (.refl copies) depth
    _ = store.textWithin depth r :=
      textWithin_congr depth fun _ hj => hext.getElem?_eq (hclosed.lt_size_of_reaches hr hj)
    _ = store.text r := textWithin_of_within (within_of_acyclic hacyclic r.index) hle

end Store

end BoundQuery
