import BoundQuery.Proofs.Store.Reachable

/-!
# Stores without cycles

A call links the statement that it is made on to the statements that it hands over, and a copy shows
statements that were there before it. So no cycle comes about where what is handed over does not
take in the statement that is called, and stores that are formed in this way have none.

## Main definitions

* `Store.Formed`: the stores that actions form without making a statement a part of itself.

## Main statements

* `Store.Acyclic.call`, `Store.Acyclic.clone`: calls and copies make no cycle.
* `Store.Formed.acyclic`: formed stores have no cycle.
-/

namespace BoundQuery.Store

open Run

variable {store later : Store}

/-- New links from one statement to others that do not take it in make no cycle. -/
theorem Acyclic.of_shows (h : store.Acyclic) {i : Nat}
    (hshows : ∀ k j, later.Shows k j → store.Shows k j ∨ k = i ∧ ¬ store.Reaches j i) :
    later.Acyclic := by
  -- A chain has no new link, or it goes on from the last of them without coming back.
  have hchain : ∀ k j, Relation.TransGen later.Shows k j →
      Relation.TransGen store.Shows k j ∨
        store.Reaches k i ∧ ∃ q, ¬ store.Reaches q i ∧ store.Reaches q j := by
    intro k j hkj
    induction hkj with
    | single hkj =>
      rcases hshows _ _ hkj with hkj | ⟨rfl, hback⟩
      · exact .inl (.single hkj)
      · exact .inr ⟨.refl, _, hback, .refl⟩
    | tail _ hjl ih =>
      rcases hshows _ _ hjl with hjl | ⟨rfl, hback⟩
      · rcases ih with hkj | ⟨hki, q, hq, hqj⟩
        · exact .inl (.tail hkj hjl)
        · exact .inr ⟨hki, q, hq, .tail hqj hjl⟩
      · rcases ih with hkj | ⟨-, q, hq, hqj⟩
        · exact .inr ⟨hkj.to_reflTransGen, _, hback, .refl⟩
        · exact absurd hqj hq
  intro k hk
  rcases hchain k k hk with hk | ⟨hki, q, hq, hqk⟩
  · exact h k hk
  · exact hq (hqk.trans hki)

/-- A call links the statement that it is made on to what it hands over, and changes no other. -/
theorem shows_call (hbalanced : ∀ s ∈ store.statements, s.Balanced) {r : Ref} {c : Call} {i j : Nat}
    (h : ((call r c).run store).state.Shows i j) :
    store.Shows i j ∨ i = r.index ∧ ∃ q ∈ c.shown, q.index = j := by
  obtain ⟨t, ht, q, hq, rfl⟩ := h
  by_cases hi : r.index = i
  · subst hi
    cases hs : store.get? r with
    | none =>
      rw [state_call_of_none hs] at ht
      exact .inl ⟨t, ht, q, hq, rfl⟩
    | some s =>
      have hstate : ((call r c).run store).state.get? r =
          some ((c.perform store.text).run s).state := by
        rw [state_call_of_get? hs, get?_set, if_pos rfl, hs]
        rfl
      obtain rfl := Option.some.inj (hstate.symm.trans ht)
      rw [Call.state_perform store.text c (hbalanced s (List.mem_of_getElem? hs))] at hq
      rcases hchange : c.change store.text s.settings with failure | change
      · rw [hchange] at hq
        exact .inl (shows_of_get? hs hq)
      · rw [hchange] at hq
        rcases Call.mem_shown_apply hchange hq with hq | hq
        · exact .inl (shows_of_get? hs hq)
        · exact .inr ⟨rfl, q, hq, rfl⟩
  · rw [getElem?_call hi] at ht
    exact .inl ⟨t, ht, q, hq, rfl⟩

/-- A call that hands over nothing that takes in its statement makes no cycle. -/
theorem Acyclic.call (h : store.Acyclic) (hbalanced : ∀ s ∈ store.statements, s.Balanced) {r : Ref}
    {c : Call} (hc : ∀ q ∈ c.shown, ¬ store.Reaches q.index r.index) :
    ((call r c).run store).state.Acyclic := by
  refine h.of_shows (i := r.index) ?_
  intro k j hkj
  rcases shows_call hbalanced hkj with hkj | ⟨rfl, q, hq, rfl⟩
  · exact .inl hkj
  · exact .inr ⟨rfl, hc q hq⟩

/-- A new statement that shows older ones makes no cycle. -/
theorem Acyclic.add (h : store.Acyclic) (hclosed : store.Closed) {s : Statement}
    (hs : ∀ q ∈ s.shown, q.index < store.size) : (store.add s).Acyclic := by
  refine h.of_shows (i := store.size) ?_
  rintro k j ⟨t, ht, q, hq, rfl⟩
  by_cases hk : k < store.size
  · rw [(extends_add store s).getElem?_eq hk] at ht
    exact .inl ⟨t, ht, q, hq, rfl⟩
  · have hlt : k < (store.add s).size := (List.getElem?_eq_some_iff.1 ht).1
    rw [size_add] at hlt
    obtain rfl : k = store.size := by omega
    rw [Store.add, size, List.getElem?_concat_length] at ht
    obtain rfl := Option.some.inj ht
    refine .inr ⟨rfl, fun hback => ?_⟩
    exact absurd (hclosed.lt_size_of_reaches (hs q hq) hback) (Nat.lt_irrefl _)

/-- Copying makes no cycle. -/
theorem Acyclic.clone (h : store.Acyclic) (hclosed : store.Closed) (r : Ref) :
    ((clone r).run store).state.Acyclic := by
  refine (ends_clone (P := fun t => t.Closed ∧ t.Acyclic) (Q := fun _ q t => q.index < t.size)
    ?_ ?_ r store ⟨hclosed, h⟩).1.1.2
  · intro r q t later hext hq
    exact hq.trans_le hext.size_le
  · intro t r s columns branches ht hs hcolumns hbranches
    have hshown := ht.1.forall_mem_shown_copy hs hcolumns hbranches
    refine ⟨⟨ht.1.add hshown, ht.2.add ht.1 hshown⟩, ?_⟩
    rw [size_add]
    exact Nat.lt_succ_self _

/-! ## Formed stores -/

/-- An action makes no cycle where what it hands over is there and does not take in the statement
that is called. -/
theorem Acyclic.perform (h : store.Acyclic) (hclosed : store.Closed)
    (hbalanced : ∀ s ∈ store.statements, s.Balanced) {a : Action}
    (ha : ∀ q ∈ a.shown, q.index < store.size)
    (hcall : ∀ r c, a = .call r c → ∀ q ∈ c.shown, ¬ store.Reaches q.index r.index) :
    ((perform a).run store).state.Acyclic := by
  cases a with
  | query source settings =>
    refine h.add hclosed ?_
    intro q hq
    cases hq
  | subselect label settings => exact h.add hclosed ha
  | call r c =>
    rw [state_perform_call]
    exact h.call hbalanced (hcall r c rfl)
  | clone r => exact h.clone hclosed r

/-- Some actions lead to a store, each of which hands over statements that are there and do not take
in the statement that is called. -/
inductive Formed : Store → Prop where
  | empty : Formed empty
  | perform {store : Store} {a : Action} (h : Formed store)
      (ha : ∀ q ∈ a.shown, q.index < store.size)
      (hcall : ∀ r c, a = .call r c → ∀ q ∈ c.shown, ¬ store.Reaches q.index r.index) :
      Formed ((perform a).run store).state

theorem Formed.reachable (h : store.Formed) : store.Reachable := by
  induction h with
  | empty => exact .empty
  | perform _ ha _ ih => exact ih.perform ha

/-- No statement of a formed store is a part of itself. -/
theorem Formed.acyclic (h : store.Formed) : store.Acyclic := by
  induction h with
  | empty =>
    intro i hi
    obtain ⟨j, hij, -⟩ := Relation.TransGen.head'_iff.1 hi
    exact absurd hij.lt_size (Nat.not_lt_zero i)
  | perform hstore ha hcall ih =>
    exact ih.perform hstore.reachable.closed (fun s hs => hstore.reachable.balanced hs) ha hcall

end BoundQuery.Store
