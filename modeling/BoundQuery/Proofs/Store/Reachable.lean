import BoundQuery.Proofs.Store.Actions

/-!
# Reachable stores

A store is reachable when some actions lead to it from the empty one, each of which hands over
statements that are there. No statement of a reachable store shows one that is not there, so
statements that are added later are no part of those that are there.

## Main definitions

* `Action.shown`: the statements that an action hands over to be shown.
* `Store.Reachable`: the reachable stores.
* `Store.Closed`: what a statement shows is there.

## Main statements

* `Store.Reachable.closed`: reachable stores are closed.
-/

namespace BoundQuery

/-- The statements that a call hands over to be shown. -/
def Call.shown : Call → List Ref
  | columns names _ => names.flatMap Value.shown
  | union branch => branch.shown
  | _ => []

/-- The statements that an action hands over to be shown. -/
def Action.shown : Action → List Ref
  | subselect label _ => label.shown
  | call _ c => c.shown
  | query .. | clone _ => []

theorem Statement.mem_splitColumns {names : List Value} {grouped v : Value}
    (h : v ∈ (splitColumns names grouped).1) : v ∈ names := by
  unfold splitColumns at h
  split at h
  · exact List.mem_of_mem_dropLast h
  · exact h

/-- A statement shows after a call what it showed before, and what the call handed over. -/
theorem Call.mem_shown_apply {c : Call} {resolve : Resolver} {settings : Settings}
    {change : Change} (hchange : c.change resolve settings = .ok change) {s : Statement} {q : Ref}
    (hq : q ∈ (change.apply s).shown) : q ∈ s.shown ∨ q ∈ c.shown := by
  cases c with
  | columns names grouped =>
    obtain rfl : Change.columns (Statement.splitColumns names grouped).1
        (Statement.splitColumns names grouped).2 = change := Except.ok.inj hchange
    rw [Statement.mem_shown] at hq ⊢
    rcases hq with ⟨v, hv, hq⟩ | hq
    · rcases List.mem_append.1 hv with hv | hv
      · exact .inl (.inl ⟨v, hv, hq⟩)
      · exact .inr (List.mem_flatMap.2 ⟨v, Statement.mem_splitColumns hv, hq⟩)
    · exact .inl (.inr hq)
  | union branch =>
    cases hchange
    rw [Statement.mem_shown] at hq ⊢
    rcases hq with hq | ⟨v, hv, hq⟩ | hq
    · exact .inl (.inl hq)
    · rcases List.mem_append.1 hv with hv | hv
      · exact .inl (.inr (.inl ⟨v, hv, hq⟩))
      · rw [List.mem_singleton.1 hv] at hq
        exact .inr hq
    · exact .inl (.inr (.inr hq))
  | attach filter connective condition =>
    obtain ⟨p, -, -, rfl⟩ := exists_of_change_attach hchange
    cases filter <;> exact .inl hq
  | orderBy expr ascending =>
    obtain ⟨item, -, rfl⟩ := Result.map_eq_ok.1 hchange
    exact .inl hq
  | distinct | source | join | parameter | groupBy | limit =>
    cases hchange
    exact .inl hq

namespace Store

/-- Some actions lead to a store, each of which hands over statements that are there. -/
inductive Reachable : Store → Prop where
  | empty : Reachable empty
  | perform {store : Store} {a : Action} (h : Reachable store)
      (ha : ∀ q ∈ a.shown, q.index < store.size) : Reachable ((perform a).run store).state

/-- What a statement shows is there. -/
def Closed (store : Store) : Prop := ∀ s ∈ store.statements, ∀ q ∈ s.shown, q.index < store.size

theorem Reachable.exists_actions {store : Store} (h : store.Reachable) :
    ∃ actions, store = Store.empty.after actions := by
  induction h with
  | empty => exact ⟨[], rfl⟩
  | @perform store a _ _ ih =>
    obtain ⟨actions, rfl⟩ := ih
    exact ⟨actions ++ [a], by simp [after]⟩

theorem Reachable.balanced {store : Store} (h : store.Reachable) {s : Statement}
    (hs : s ∈ store.statements) : s.Balanced := by
  obtain ⟨actions, rfl⟩ := h.exists_actions
  exact balanced_after actions hs

theorem Closed.add {store : Store} (h : store.Closed) {s : Statement}
    (hs : ∀ q ∈ s.shown, q.index < store.size) : (store.add s).Closed := by
  intro t ht q hq
  rw [size_add]
  rcases List.mem_append.1 ht with ht | ht
  · exact (h t ht q hq).trans (Nat.lt_succ_self _)
  · rw [List.mem_singleton.1 ht] at hq
    exact (hs q hq).trans (Nat.lt_succ_self _)

theorem Closed.call {store : Store} (h : store.Closed)
    (hbalanced : ∀ s ∈ store.statements, s.Balanced) (r : Ref) {c : Call}
    (hc : ∀ q ∈ c.shown, q.index < store.size) : ((call r c).run store).state.Closed := by
  cases hs : store.get? r with
  | none =>
    rw [state_call_of_none hs]
    exact h
  | some s =>
    have hmem : s ∈ store.statements := List.mem_of_getElem? hs
    rw [state_call_of_get? hs, Call.state_perform store.text c (hbalanced s hmem)]
    intro t ht q hq
    rw [size_set]
    rcases List.mem_or_eq_of_mem_set ht with ht | rfl
    · exact h t ht q hq
    · rcases hchange : c.change store.text s.settings with failure | change
      · rw [hchange] at hq
        exact h s hmem q hq
      · rw [hchange] at hq
        rcases Call.mem_shown_apply hchange hq with hq | hq
        · exact h s hmem q hq
        · exact hc q hq

/-- A copy shows what is there, if its parts are. -/
theorem Closed.forall_mem_shown_copy {store : Store} (h : store.Closed) {r : Ref} {s : Statement}
    (hs : store.get? r = some s) {columns branches : List Value}
    (hcolumns : List.Forall₂ (CopiedColumn fun _ q => q.index < store.size) s.columns columns)
    (hbranches : List.Forall₂ (CopiedBranch fun _ q => q.index < store.size) s.branches branches) :
    ∀ q ∈ (s.copy columns branches).shown, q.index < store.size := by
  have hshown := h s (List.mem_of_getElem? hs)
  refine Statement.forall_mem_shown_copy ?_ ?_ hcolumns hbranches
  · intro v hv _ q hq
    exact hshown q (Statement.mem_shown.2 (.inl ⟨v, hv, hq⟩))
  · intro q hq
    exact hshown q (Statement.mem_shown.2 (.inr (.inr hq)))

theorem Closed.clone {store : Store} (h : store.Closed) (r : Ref) :
    ((clone r).run store).state.Closed := by
  refine (ends_clone (P := Closed) (Q := fun _ q t => q.index < t.size) ?_ ?_ r store h).1.1
  · intro r q t later hext hq
    exact hq.trans_le hext.size_le
  · intro t r s columns branches ht hs hcolumns hbranches
    refine ⟨ht.add (ht.forall_mem_shown_copy hs hcolumns hbranches), ?_⟩
    rw [size_add]
    exact Nat.lt_succ_self _

/-- What the statements of a reachable store show is there. -/
theorem Reachable.closed {store : Store} (h : store.Reachable) : store.Closed := by
  induction h with
  | empty =>
    intro s hs
    cases hs
  | @perform store a hstore ha ih =>
    cases a with
    | query source settings =>
      refine ih.add ?_
      intro q hq
      cases hq
    | subselect label settings => exact ih.add ha
    | call r c =>
      rw [state_perform_call]
      exact ih.call (fun s hs => hstore.balanced hs) r ha
    | clone r => exact ih.clone r

theorem Extends.reaches {store later : Store} (h : store.Extends later) {i j : Nat}
    (hij : store.Reaches i j) : later.Reaches i j := by
  induction hij with
  | refl => exact .refl
  | tail _ hjk ih => exact ih.tail (hjk.of_extends h)

/-- From a statement that is there, only statements that are there are reached. -/
theorem Closed.lt_size_of_reaches {store : Store} (h : store.Closed) {i j : Nat}
    (hi : i < store.size) (hij : store.Reaches i j) : j < store.size := by
  induction hij with
  | refl => exact hi
  | tail _ hjk _ =>
    obtain ⟨s, hs, q, hq, rfl⟩ := hjk
    exact h s (List.mem_of_getElem? hs) q hq

/-- What an old statement reaches after an addition it reached before. -/
theorem Closed.reaches_of_extends {store later : Store} (h : store.Closed)
    (hext : store.Extends later) {i j : Nat} (hi : i < store.size) (hij : later.Reaches i j) :
    store.Reaches i j := by
  induction hij with
  | refl => exact .refl
  | tail _ hjk ih => exact ih.tail (hext.shows (h.lt_size_of_reaches hi ih) hjk)

end Store

end BoundQuery
