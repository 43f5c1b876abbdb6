import BoundQuery.Proofs.Statement.Change
import BoundQuery.Proofs.Store.Copy

/-!
# What actions leave

An action changes at most the statement that it calls, and adds statements behind the others. So
a statement stays what it is until it is called, and what holds of every statement that is started,
and is kept by every change and by copying, holds of every statement after any actions.

## Main definitions

* `Kept`: a property of statements that some actions keep.

## Main statements

* `Store.getElem?_after`: a statement that is not called stays what it is.
* `Store.forall_after`: what is kept holds of every statement after some actions.
-/

namespace BoundQuery

namespace Store

open Run

/-! ## Copies -/

section Clone

variable {P : Store → Prop} {Q : Ref → Ref → Store → Prop}

theorem state_clone_of_error {r : Ref} {store : Store} {failure : Failure}
    (h : ((clone r).run store).result = .error failure) : ((clone r).run store).state = store := by
  have hext := extends_cloneWithin (store.size + 1) r store
  simp only [clone] at h ⊢
  split at h
  · cases h
  · exact hext.keep_eq

/-- Copying a statement that can be copied leaves what `cloneWithin` leaves. -/
theorem run_clone_of_ok {r twin : Ref} {store : Store}
    (h : ((cloneWithin (store.size + 1) r).run store).result = .ok twin) :
    (clone r).run store = (cloneWithin (store.size + 1) r).run store := by
  simp only [clone, h]
  rw [← h]

theorem result_clone (r : Ref) (store : Store) :
    ((clone r).run store).result = ((cloneWithin (store.size + 1) r).run store).result := by
  cases ho : ((cloneWithin (store.size + 1) r).run store).result with
  | error failure => simp only [clone, ho]
  | ok twin => rw [run_clone_of_ok ho, ho]

theorem ends_clone
    (hmono : ∀ {r q store later}, store.Extends later → Q r q store → Q r q later)
    (hadd : ∀ {store r s columns branches}, P store → store.get? r = some s →
      List.Forall₂ (CopiedColumn (Q · · store)) s.columns columns →
      List.Forall₂ (CopiedBranch (Q · · store)) s.branches branches →
      P (store.add (s.copy columns branches)) ∧
        Q r ⟨r.variant, store.size⟩ (store.add (s.copy columns branches)))
    (r : Ref) (store : Store) (hP : P store) :
    Ends (clone r) store (fun t => P t ∧ store.Extends t) (Q r) := by
  have hends := ends_cloneWithin (P := P) (Q := Q) hmono hadd (store.size + 1) r store hP
  rcases ho : ((cloneWithin (store.size + 1) r).run store).result with failure | twin
  · have hresult : ((clone r).run store).result = .error failure := by
      simp only [clone, ho]
    refine ⟨?_, ?_⟩
    · rw [state_clone_of_error hresult]
      exact ⟨hP, .refl store⟩
    · intro twin htwin
      rw [hresult] at htwin
      cases htwin
  · rw [Ends, run_clone_of_ok ho]
    exact hends

theorem extends_clone (r : Ref) (store : Store) : store.Extends ((clone r).run store).state :=
  (ends_clone (P := fun _ => True) (Q := fun _ _ _ => True) (fun _ h => h)
    (fun _ _ _ _ => ⟨trivial, trivial⟩) r store trivial).1.2

end Clone

/-! ## Calls -/

theorem state_call_of_get? {store : Store} {r : Ref} {s : Statement} (hs : store.get? r = some s)
    (c : Call) :
    ((call r c).run store).state = store.set r ((c.perform store.text).run s).state := by
  simp only [call, hs]

theorem result_call_of_get? {store : Store} {r : Ref} {s : Statement} (hs : store.get? r = some s)
    (c : Call) :
    ((call r c).run store).result = ((c.perform store.text).run s).result := by
  simp only [call, hs]

theorem state_call_of_none {store : Store} {r : Ref} (hr : store.get? r = none) (c : Call) :
    ((call r c).run store).state = store := by
  simp only [call, hr]

@[simp] theorem state_perform_call (r : Ref) (c : Call) (store : Store) :
    ((perform (.call r c)).run store).state = ((call r c).run store).state := by
  simp only [perform, run_bind, follow]
  split <;> rfl

@[simp] theorem result_perform_call (r : Ref) (c : Call) (store : Store) :
    ((perform (.call r c)).run store).result =
      ((call r c).run store).result.map fun _ => r := by
  simp only [perform, run_bind, follow]
  split
  · next h => rw [h]; rfl
  · next h => rw [h]; rfl

@[simp] theorem size_call (r : Ref) (c : Call) (store : Store) :
    ((call r c).run store).state.size = store.size := by
  cases hs : store.get? r with
  | none => rw [state_call_of_none hs]
  | some s => rw [state_call_of_get? hs, size_set]

theorem getElem?_call {r : Ref} {j : Nat} (hne : r.index ≠ j) (c : Call) (store : Store) :
    ((call r c).run store).state.statements[j]? = store.statements[j]? := by
  cases hs : store.get? r with
  | none => rw [state_call_of_none hs]
  | some s => rw [state_call_of_get? hs, set, List.getElem?_set_ne hne]

/-! ## Actions -/

theorem size_le_perform (a : Action) (store : Store) :
    store.size ≤ ((perform a).run store).state.size := by
  cases a with
  | query source settings => exact (extends_add store _).size_le
  | subselect label settings => exact (extends_add store _).size_le
  | call r c => simp
  | clone r => exact (extends_clone r store).size_le

/-- An action changes no statement but the one that it calls. -/
theorem getElem?_perform {a : Action} {store : Store} {j : Nat} (hj : j < store.size)
    (ha : ∀ q c, a = .call q c → q.index ≠ j) :
    ((perform a).run store).state.statements[j]? = store.statements[j]? := by
  cases a with
  | query source settings => exact (extends_add store _).getElem?_eq hj
  | subselect label settings => exact (extends_add store _).getElem?_eq hj
  | call r c =>
    rw [state_perform_call]
    exact getElem?_call (ha r c rfl) c store
  | clone r => exact (extends_clone r store).getElem?_eq hj

theorem size_le_after (store : Store) (actions : List Action) :
    store.size ≤ (store.after actions).size := by
  induction actions generalizing store with
  | nil => exact Nat.le_refl _
  | cons a rest ih => exact (size_le_perform a store).trans (ih _)

/-- A statement that is not called stays what it is. -/
theorem getElem?_after {store : Store} {actions : List Action} {j : Nat} (hj : j < store.size)
    (h : ∀ q c, .call q c ∈ actions → q.index ≠ j) :
    (store.after actions).statements[j]? = store.statements[j]? := by
  induction actions generalizing store with
  | nil => rfl
  | cons a rest ih =>
    rw [after_cons, ih (hj.trans_le (size_le_perform a store)) ?_, getElem?_perform hj ?_]
    · intro q c ha
      exact h q c (ha ▸ List.mem_cons_self)
    · intro q c hc
      exact h q c (List.mem_cons_of_mem _ hc)

end Store

/-! ## What actions keep -/

/-- A property that holds of the statements that some actions start, and is kept by their changes
and by copying. -/
structure Kept (Allowed : Action → Prop) (P : Statement → Prop) : Prop where
  query : ∀ {source settings}, Allowed (.query source settings) → P (.ofSource source settings)
  subselect : ∀ {label settings}, Allowed (.subselect label settings) → P (.blank label settings)
  change : ∀ {r c resolve s change}, Allowed (.call r c) → s.Balanced → P s →
    c.change resolve s.settings = .ok change → P (change.apply s)
  copy : ∀ {s columns branches}, P s →
    List.Forall₂ (CopiedColumn fun r q => q.variant = r.variant) s.columns columns →
    List.Forall₂ (CopiedBranch fun r q => q.variant = r.variant) s.branches branches →
    P (s.copy columns branches)

namespace Store

open Run

variable {Allowed : Action → Prop} {P : Statement → Prop}

private theorem forall_add {store : Store} {s : Statement} (h : ∀ t ∈ store.statements, P t)
    (hs : P s) : ∀ t ∈ (store.add s).statements, P t := by
  intro t ht
  rcases List.mem_append.1 ht with ht | ht
  · exact h t ht
  · rw [List.mem_singleton.1 ht]
    exact hs

/-- What the actions keep holds of every statement after one of them, and so does balance. -/
theorem forall_perform (hP : Kept Allowed P) {a : Action} (ha : Allowed a) {store : Store}
    (h : ∀ s ∈ store.statements, s.Balanced ∧ P s) :
    ∀ s ∈ ((perform a).run store).state.statements, s.Balanced ∧ P s := by
  cases a with
  | query source settings =>
    exact forall_add h ⟨Statement.balanced_ofSource source settings, hP.query ha⟩
  | subselect label settings =>
    exact forall_add h ⟨Statement.balanced_blank label settings, hP.subselect ha⟩
  | call r c =>
    rw [state_perform_call]
    cases hs : store.get? r with
    | none =>
      rw [state_call_of_none hs]
      exact h
    | some s =>
      obtain ⟨hb, hp⟩ := h s (List.mem_of_getElem? hs)
      rw [state_call_of_get? hs, Call.state_perform store.text c hb]
      intro t ht
      rcases List.mem_or_eq_of_mem_set ht with ht | rfl
      · exact h t ht
      · rcases hc : c.change store.text s.settings with failure | change
        · exact ⟨hb, hp⟩
        · exact ⟨hb.apply change, hP.change ha hb hp hc⟩
  | clone r =>
    refine (ends_clone (P := fun store => ∀ s ∈ store.statements, s.Balanced ∧ P s)
      (Q := fun r q _ => q.variant = r.variant) (fun _ hq => hq) ?_ r store h).1.1
    intro store r s columns branches hstore hs hcolumns hbranches
    obtain ⟨hb, hp⟩ := hstore s (List.mem_of_getElem? hs)
    exact ⟨forall_add hstore ⟨⟨hb.length_parts, rfl⟩, hP.copy hp hcolumns hbranches⟩, rfl⟩

/-- What some actions keep holds of every statement after them, and so does balance. -/
theorem forall_after (hP : Kept Allowed P) {actions : List Action}
    (ha : ∀ a ∈ actions, Allowed a) :
    ∀ s ∈ (empty.after actions).statements, s.Balanced ∧ P s := by
  suffices ∀ store : Store, (∀ s ∈ store.statements, s.Balanced ∧ P s) →
      ∀ s ∈ (store.after actions).statements, s.Balanced ∧ P s from
    this empty fun s hs => by cases hs
  induction actions with
  | nil => exact fun store h => h
  | cons a rest ih =>
    intro store h
    rw [after_cons]
    exact ih (fun b hb => ha b (List.mem_cons_of_mem _ hb)) _
      (forall_perform hP (ha a List.mem_cons_self) h)

private theorem kept_true : Kept (fun _ => True) fun _ => True :=
  ⟨fun _ => trivial, fun _ => trivial, fun _ _ _ _ => trivial, fun _ _ _ => trivial⟩

/-- Where all statements are balanced, an action leaves them so. -/
theorem balanced_perform (a : Action) {store : Store} (h : ∀ s ∈ store.statements, s.Balanced) :
    ∀ s ∈ ((perform a).run store).state.statements, s.Balanced := by
  intro s hs
  exact (forall_perform kept_true trivial (fun t ht => ⟨h t ht, trivial⟩) s hs).1

/-- Every statement that any actions leave is balanced. -/
theorem balanced_after (actions : List Action) {s : Statement}
    (hs : s ∈ (empty.after actions).statements) : s.Balanced :=
  (forall_after kept_true (fun _ _ => trivial) s hs).1

end Store

end BoundQuery
