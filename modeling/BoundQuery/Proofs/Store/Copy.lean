import BoundQuery.Proofs.Run
import BoundQuery.Proofs.Store.Graph
import BoundQuery.Statement.Action

/-!
# How copies come about

Copying a statement adds statements to a store and changes none that is there. Each statement that
is added is the copy of one in the store, with copies in place of its subselects and its branches,
and stands behind these. Whatever such an addition keeps, copying keeps.

## Main definitions

* `Store.Extends`: a store that has the statements of another in their places.
* `CopiedColumn`, `CopiedBranch`: columns and branches beside those of a copy.
* `Store.cloneFrom`: a copy of a statement that is there, given how its parts are copied.

## Main statements

* `Store.ends_cloneWithin`: what copying keeps, from what the addition of one copy keeps.
-/

namespace BoundQuery

namespace Store

/-- A later store has the statements of an earlier one in their places. -/
def Extends (store later : Store) : Prop := store.statements <+: later.statements

theorem Extends.refl (store : Store) : store.Extends store := List.prefix_refl _

theorem Extends.trans {a b c : Store} (hab : a.Extends b) (hbc : b.Extends c) : a.Extends c :=
  List.IsPrefix.trans hab hbc

theorem extends_add (store : Store) (s : Statement) : store.Extends (store.add s) :=
  List.prefix_append _ _

theorem Extends.size_le {store later : Store} (h : store.Extends later) :
    store.size ≤ later.size := List.IsPrefix.length_le h

theorem Extends.getElem?_eq {store later : Store} (h : store.Extends later) {i : Nat}
    (hi : i < store.size) : later.statements[i]? = store.statements[i]? := by
  obtain ⟨more, hmore⟩ := h
  rw [← hmore, List.getElem?_append_left hi]

theorem Extends.shows {store later : Store} (h : store.Extends later) {i j : Nat}
    (hi : i < store.size) (hij : later.Shows i j) : store.Shows i j := by
  obtain ⟨s, hs, hq⟩ := hij
  rw [h.getElem?_eq hi] at hs
  exact ⟨s, hs, hq⟩

theorem Shows.of_extends {store later : Store} {i j : Nat} (hij : store.Shows i j)
    (h : store.Extends later) : later.Shows i j := by
  obtain ⟨s, hs, hq⟩ := hij
  exact ⟨s, (h.getElem?_eq (List.getElem?_eq_some_iff.1 hs).1).trans hs, hq⟩

theorem lt_size_of_get? {store : Store} {r : Ref} {s : Statement} (h : store.get? r = some s) :
    r.index < store.size := (List.getElem?_eq_some_iff.1 h).1

theorem Extends.get?_of_eq_some {store later : Store} (h : store.Extends later) {r : Ref}
    {s : Statement} (hr : store.get? r = some s) : later.get? r = some s := by
  rw [get?, h.getElem?_eq (lt_size_of_get? hr)]
  exact hr

/-- Giving up what was added leaves the store that was extended. -/
theorem Extends.keep_eq {store later : Store} (h : store.Extends later) :
    later.keep store.size = store := by
  obtain ⟨more, hmore⟩ := h
  simp [keep, ← hmore, size]

@[simp] theorem size_add (store : Store) (s : Statement) : (store.add s).size = store.size + 1 := by
  simp [add, size]

theorem find_eq_ok {store : Store} {r : Ref} {s : Statement} :
    store.find r = .ok s ↔ store.get? r = some s := by
  unfold find
  cases store.get? r <;> simp

end Store

/-- What stands beside an element of a second list is in the first. -/
theorem exists_mem_of_forall₂ {α β : Type} {R : α → β → Prop} {as : List α} {bs : List β}
    (h : List.Forall₂ R as bs) {b : β} (hb : b ∈ bs) : ∃ a ∈ as, R a b := by
  induction h with
  | nil => cases hb
  | @cons a _ _ _ hab _ ih =>
    rcases List.mem_cons.1 hb with rfl | hb
    · exact ⟨a, List.mem_cons_self, hab⟩
    · obtain ⟨a', ha', h⟩ := ih hb
      exact ⟨a', List.mem_cons_of_mem _ ha', h⟩

/-- A column beside that of a copy, where `Q` relates subselects to their copies. -/
def CopiedColumn (Q : Ref → Ref → Prop) (column copied : Value) : Prop :=
  match column.subselect? with
  | some r => ∃ q, copied = .statement q ∧ Q r q
  | none => copied = column

/-- A branch beside that of a copy, where `Q` relates statements to their copies. -/
def CopiedBranch (Q : Ref → Ref → Prop) (branch copied : Value) : Prop :=
  ∃ r q, branch = .statement r ∧ copied = .statement q ∧ Q r q

theorem CopiedColumn.imp {Q Q' : Ref → Ref → Prop} (hQ : ∀ r q, Q r q → Q' r q)
    {column copied : Value} (h : CopiedColumn Q column copied) : CopiedColumn Q' column copied := by
  unfold CopiedColumn at h ⊢
  split at h
  · obtain ⟨q, rfl, hq⟩ := h
    exact ⟨q, rfl, hQ _ _ hq⟩
  · exact h

/-- A column of a copy is that of the statement, or a subselect like it. -/
theorem CopiedColumn.eq_or_subselect {column copied : Value}
    (h : CopiedColumn (fun r q => q.variant = r.variant) column copied) :
    copied = column ∨ ∃ q, copied.subselect? = some q := by
  unfold CopiedColumn at h
  split at h
  · next r hr =>
    obtain ⟨q, rfl, hvariant⟩ := h
    exact .inr ⟨q, Value.subselect?_eq_some.2
      ⟨rfl, hvariant.trans (Value.subselect?_eq_some.1 hr).2⟩⟩
  · exact .inl h

theorem CopiedBranch.imp {Q Q' : Ref → Ref → Prop} (hQ : ∀ r q, Q r q → Q' r q)
    {branch copied : Value} (h : CopiedBranch Q branch copied) : CopiedBranch Q' branch copied := by
  obtain ⟨r, q, hr, hq, h⟩ := h
  exact ⟨r, q, hr, hq, hQ r q h⟩

/-- What a copy shows is in place of subselects and branches, or was shown by a column that was
kept or by the label. -/
theorem Statement.forall_mem_shown_copy {P : Ref → Prop} {s : Statement}
    (hkept : ∀ v ∈ s.columns, v.subselect? = none → ∀ q ∈ v.shown, P q)
    (hlabel : ∀ q ∈ s.label.shown, P q) {columns branches : List Value}
    (hcolumns : List.Forall₂ (CopiedColumn fun _ => P) s.columns columns)
    (hbranches : List.Forall₂ (CopiedBranch fun _ => P) s.branches branches) :
    ∀ q ∈ (s.copy columns branches).shown, P q := by
  intro q hq
  rcases Statement.mem_shown.1 hq with ⟨v, hv, hq⟩ | ⟨v, hv, hq⟩ | hq
  · obtain ⟨u, hu, hcopied⟩ := exists_mem_of_forall₂ hcolumns hv
    unfold CopiedColumn at hcopied
    split at hcopied
    · obtain ⟨p, rfl, hp⟩ := hcopied
      rw [List.mem_singleton.1 hq]
      exact hp
    · next hnone =>
      rw [hcopied] at hq
      exact hkept u hu hnone q hq
  · obtain ⟨u, hu, r, p, hur, rfl, hp⟩ := exists_mem_of_forall₂ hbranches hv
    rw [List.mem_singleton.1 hq]
    exact hp
  · exact hlabel q hq

namespace Store

open Run

/-- A copy of a statement that is there, given how its parts are copied. -/
def cloneFrom (clone : Ref → Run Store Ref) (r : Ref) (s : Statement) : Run Store Ref := do
  let columns ← s.columns.mapM (cloneColumn clone)
  let branches ← s.branches.mapM (cloneBranch clone)
  Run.emit (.cloned r.variant s.bound.length)
  create r.variant (s.copy columns branches)

theorem run_cloneWithin_succ {store : Store} {r : Ref} {s : Statement}
    (hs : store.get? r = some s) (depth : Nat) :
    (cloneWithin (depth + 1) r).run store = (cloneFrom (cloneWithin depth) r s).run store := by
  simp only [cloneWithin, run_bind, run_get, follow_ok, run_ofExcept, find_eq_ok.2 hs,
    List.nil_append]
  rfl

theorem run_cloneWithin_succ_of_none {store : Store} {r : Ref} (hr : store.get? r = none)
    (depth : Nat) :
    (cloneWithin (depth + 1) r).run store = ⟨store, [], .error .unknownStatement⟩ := by
  simp only [cloneWithin, find, hr, run_bind, run_get, follow_ok, run_ofExcept, follow_error,
    List.nil_append]

section Copying

variable {P : Store → Prop} {Q : Ref → Ref → Store → Prop}

/-- What copying a statement may rely on for its parts. -/
private def Copies (P : Store → Prop) (Q : Ref → Ref → Store → Prop)
    (clone : Ref → Run Store Ref) : Prop :=
  ∀ r store, P store → Ends (clone r) store (fun t => P t ∧ store.Extends t) (Q r)

private theorem Copies.column {clone : Ref → Run Store Ref} (h : Copies P Q clone) (column : Value)
    {store : Store} (hP : P store) :
    Ends (cloneColumn clone column) store (fun t => P t ∧ store.Extends t)
      fun copied t => CopiedColumn (Q · · t) column copied := by
  cases hr : column.subselect? with
  | none =>
    simp only [cloneColumn, CopiedColumn, hr]
    exact ends_pure ⟨hP, .refl store⟩ rfl
  | some r =>
    simp only [cloneColumn, CopiedColumn, hr]
    change Ends (clone r >>= fun q => pure (Value.statement q)) _ _ _
    refine (h r store hP).bind (fun _ ht => ht) ?_
    intro q t ht hq
    exact ends_pure ht ⟨q, rfl, hq⟩

private theorem Copies.branch {clone : Ref → Run Store Ref} (h : Copies P Q clone) (branch : Value)
    {store : Store} (hP : P store) :
    Ends (cloneBranch clone branch) store (fun t => P t ∧ store.Extends t)
      fun copied t => CopiedBranch (Q · · t) branch copied := by
  have hbranch : Ends (ofExcept (branch.branch "clone")) store (fun t => t = store)
      fun r _ => branch = .statement r :=
    ends_ofExcept rfl fun r hr => Value.branch_eq_ok.1 hr
  refine hbranch.bind (fun t ht => by rw [ht]; exact ⟨hP, .refl store⟩) ?_
  rintro r t rfl hr
  change Ends (clone r >>= fun q => pure (Value.statement q)) _ _ _
  refine (h r t hP).bind (fun _ hu => hu) ?_
  intro q u hu hq
  exact ends_pure hu ⟨r, q, hr, rfl, hq⟩

/-- Copying keeps what the addition of a copy keeps, and relates statements to their copies. -/
theorem ends_cloneWithin
    (hmono : ∀ {r q store later}, store.Extends later → Q r q store → Q r q later)
    (hadd : ∀ {store r s columns branches}, P store → store.get? r = some s →
      List.Forall₂ (CopiedColumn (Q · · store)) s.columns columns →
      List.Forall₂ (CopiedBranch (Q · · store)) s.branches branches →
      P (store.add (s.copy columns branches)) ∧
        Q r ⟨r.variant, store.size⟩ (store.add (s.copy columns branches)))
    (depth : Nat) (r : Ref) (store : Store) (hP : P store) :
    Ends (cloneWithin depth r) store (fun t => P t ∧ store.Extends t) (Q r) := by
  induction depth generalizing r store with
  | zero => exact ends_fail ⟨hP, .refl store⟩
  | succ depth ih =>
    cases hs : store.get? r with
    | none =>
      rw [Ends, run_cloneWithin_succ_of_none hs]
      exact ⟨⟨hP, .refl store⟩, fun twin htwin => by cases htwin⟩
    | some s =>
      rw [Ends, run_cloneWithin_succ hs]
      have hcopies : Copies P Q (cloneWithin depth) := fun r store hP => ih r store hP
      have hcolumns := ends_mapM (Q := fun v w t => CopiedColumn (Q · · t) v w) Extends.refl
        Extends.trans (fun hR h => h.imp fun _ _ => hmono hR) (l := s.columns)
        (fun v _ store hP => hcopies.column v hP) hP
      refine hcolumns.bind (fun _ h => h) ?_
      intro columns u hu hcolumns
      have hbranches := ends_mapM (Q := fun v w t => CopiedBranch (Q · · t) v w) Extends.refl
        Extends.trans (fun hR h => h.imp fun _ _ => hmono hR) (l := s.branches)
        (fun v _ store hP => hcopies.branch v hP) hu.1
      refine hbranches.bind (fun v hv => ⟨hv.1, hu.2.trans hv.2⟩) ?_
      intro branches v hv hbranches
      have hget : v.get? r = some s := (hu.2.trans hv.2).get?_of_eq_some hs
      have hcolumns : List.Forall₂ (CopiedColumn (Q · · v)) s.columns columns :=
        hcolumns.imp fun _ _ h => h.imp fun _ _ => hmono hv.2
      obtain ⟨hP', hQ'⟩ := hadd hv.1 hget hcolumns hbranches
      refine ⟨⟨hP', (hu.2.trans hv.2).trans (extends_add v _)⟩, ?_⟩
      intro twin htwin
      cases htwin
      exact hQ'

end Copying

/-- Copying leaves the statements that are there as they are. -/
theorem extends_cloneWithin (depth : Nat) (r : Ref) (store : Store) :
    store.Extends ((cloneWithin depth r).run store).state :=
  (ends_cloneWithin (P := fun _ => True) (Q := fun _ _ _ => True) (fun _ h => h)
    (fun _ _ _ _ => ⟨trivial, trivial⟩) depth r store trivial).1.2

end Store

end BoundQuery
