import BoundQuery.Proofs.Store.Borrowed

/-!
# The copies that copying adds

What a statement owns, what that owns, and so on, unfolds to a tree, in which a statement stands as
often as it is owned. Copying goes through this tree, what is owned before its owner, and adds one
copy for every place in it. A copy has the bound values of its statement.

## Main definitions

* `Store.occurrences`: the places of the tree of a statement, what is owned before its owner.
* `Store.Adds`: the copies that are added, and how they are logged.

## Main statements

* `Store.yields_cloneWithin`: what copying adds, from what one copy adds to those of its parts.
* `Store.adds_clone`: copying adds a copy for each occurrence, in their order.
-/

namespace BoundQuery.Store

open Run

/-- The statements in the tree of a statement, at most so deep, what is owned before its owner. -/
def occurrencesWithin (store : Store) : Nat → Ref → List Ref
  | 0, _ => []
  | depth + 1, r =>
    match store.get? r with
    | none => []
    | some s => s.owned.flatMap (occurrencesWithin store depth) ++ [r]

/-- The statements in the tree of a statement, what is owned before its owner. -/
def occurrences (store : Store) (r : Ref) : List Ref := store.occurrencesWithin (store.size + 1) r

theorem occurrencesWithin_succ {store : Store} {r : Ref} {s : Statement}
    (hs : store.get? r = some s) (n : Nat) :
    store.occurrencesWithin (n + 1) r = s.owned.flatMap (store.occurrencesWithin n) ++ [r] := by
  simp only [occurrencesWithin, hs]

/-- A statement that is the copy of another one. -/
def IsCopy (store : Store) (r : Ref) (copy : Statement) : Prop :=
  ∃ s columns branches, store.get? r = some s ∧ copy = s.copy columns branches

/-- The event that is logged when a statement was copied. -/
def IsLogged (store : Store) (r : Ref) (event : Event) : Prop :=
  ∃ s, store.get? r = some s ∧ event = .cloned r.variant s.bound.length

/-- Copies of some statements are added one after the other, and each is logged. -/
structure Adds (store : Store) (refs : List Ref) (before : Store) (events : List Event)
    (after : Store) : Prop where
  statements : ∃ added, after.statements = before.statements ++ added ∧
    List.Forall₂ store.IsCopy refs added
  events : List.Forall₂ store.IsLogged refs events

variable {store : Store}

theorem Adds.nil (before : Store) : store.Adds [] before [] before :=
  ⟨⟨[], (List.append_nil _).symm, .nil⟩, .nil⟩

theorem Adds.append {xs ys : List Ref} {before middle after : Store} {events more : List Event}
    (hxs : store.Adds xs before events middle) (hys : store.Adds ys middle more after) :
    store.Adds (xs ++ ys) before (events ++ more) after := by
  obtain ⟨added, hadded, hcopies⟩ := hxs.statements
  obtain ⟨added', hadded', hcopies'⟩ := hys.statements
  refine ⟨⟨added ++ added', ?_, List.rel_append hcopies hcopies'⟩,
    List.rel_append hxs.events hys.events⟩
  rw [hadded', hadded, List.append_assoc]

theorem Adds.extends {refs : List Ref} {before after : Store} {events : List Event}
    (h : store.Adds refs before events after) : before.Extends after := by
  obtain ⟨added, hadded, -⟩ := h.statements
  exact ⟨added, hadded.symm⟩

theorem Adds.size_eq {refs : List Ref} {before after : Store} {events : List Event}
    (h : store.Adds refs before events after) : after.size = before.size + refs.length := by
  obtain ⟨added, hadded, hcopies⟩ := h.statements
  rw [size, hadded, List.length_append, ← hcopies.length_eq]
  rfl

/-- The addition of one copy, which is logged first. -/
theorem adds_copy {r : Ref} {s : Statement} (hs : store.get? r = some s)
    (columns branches : List Value) (before : Store) :
    store.Adds [r] before [.cloned r.variant s.bound.length]
      (before.add (s.copy columns branches)) :=
  ⟨⟨_, rfl, .cons ⟨s, columns, branches, hs, rfl⟩ .nil⟩, .cons ⟨s, hs, rfl⟩ .nil⟩

/-! ## What copying adds -/

section Copying

variable {clone : Ref → Run Store Ref} {v : Value} {t : Store}
  {S : List Ref → List Ref → Store → List Event → Store → Prop}

private theorem yields_cloneColumn (hnil : S [] [] t [] t)
    (h : ∀ q, v.subselect? = some q →
      Yields (clone q) t fun twin events u => twin.variant = q.variant ∧ S [q] [twin] t events u) :
    Yields (cloneColumn clone v) t fun w =>
      S ([v].filterMap Value.subselect?) ([w].filterMap Value.subselect?) t := by
  cases hq : v.subselect? with
  | none =>
    simp only [cloneColumn, hq]
    refine yields_pure ?_
    simp only [List.filterMap_cons, List.filterMap_nil, hq]
    exact hnil
  | some q =>
    simp only [cloneColumn, hq]
    refine (h q hq).bind ?_
    rintro twin events u ⟨hvariant, hS⟩
    have htwin : (Value.statement twin).subselect? = some twin :=
      Value.subselect?_eq_some.2 ⟨rfl, hvariant.trans (Value.subselect?_eq_some.1 hq).2⟩
    refine yields_pure ?_
    simp only [List.filterMap_cons, List.filterMap_nil, hq, htwin, List.append_nil]
    exact hS

private theorem yields_cloneBranch
    (h : ∀ q, v = .statement q → Yields (clone q) t fun twin => S [q] [twin] t) :
    Yields (cloneBranch clone v) t fun w =>
      S ([v].filterMap Value.statement?) ([w].filterMap Value.statement?) t := by
  cases v with
  | statement q =>
    change Yields (Value.statement <$> clone q) t _
    refine (h q rfl).bind ?_
    intro twin events u hS
    refine yields_pure ?_
    rw [List.append_nil]
    exact hS
  | _ =>
    intro w hw
    cases hw

variable {T : Nat → List Ref → List Ref → Store → List Event → Store → Prop}

/-- What copying adds, from what one copy adds to what was added for its subselects and then for its
branches. `T` relates statements, with parts of them at most so deep, to their copies, and the store
before to the events and the store after. Copying starts from a later store, to which copies may
have been added already. -/
theorem yields_cloneWithin (hclosed : store.Closed) (hnil : ∀ {n} t, T n [] [] t [] t)
    (happend : ∀ {n rs rs' qs qs' t events u more v}, T n rs qs t events u →
      T n rs' qs' u more v → T n (rs ++ rs') (qs ++ qs') t (events ++ more) v)
    (hextends : ∀ {n rs qs t events u}, T n rs qs t events u → t.Extends u)
    (hcopy : ∀ {n r s columns branches t events u more v}, store.get? r = some s →
      T n s.subselects (columns.filterMap Value.subselect?) t events u →
      T n (s.branches.filterMap Value.statement?) (branches.filterMap Value.statement?) u more v →
      T (n + 1) [r] [⟨r.variant, v.size⟩] t (events ++ more ++ [.cloned r.variant s.bound.length])
        (v.add (s.copy columns branches)))
    {n : Nat} {r : Ref} (hr : r.index < store.size) {later : Store} (hext : store.Extends later) :
    Yields (cloneWithin n r) later fun twin events t =>
      twin.variant = r.variant ∧ T n [r] [twin] later events t := by
  induction n generalizing r later with
  | zero =>
    intro twin htwin
    cases htwin
  | succ n ih =>
    obtain ⟨s, hs⟩ : ∃ s, store.get? r = some s := ⟨_, List.getElem?_eq_getElem hr⟩
    have hkeep : ∀ {rs qs t events u}, store.Extends t → T n rs qs t events u → store.Extends u :=
      fun ht h => ht.trans (hextends h)
    have howned : ∀ q ∈ s.owned, ∀ t, store.Extends t →
        Yields (cloneWithin n q) t fun twin events u =>
          twin.variant = q.variant ∧ T n [q] [twin] t events u := by
      intro q hq t ht
      exact ih (hclosed s (List.mem_of_getElem? hs) q (Statement.mem_shown_of_mem_owned hq)) ht
    have hcolumn : ∀ v ∈ s.columns, ∀ t, store.Extends t →
        Yields (cloneColumn (cloneWithin n) v) t fun w =>
          T n ([v].filterMap Value.subselect?) ([w].filterMap Value.subselect?) t := by
      intro v hv t ht
      refine yields_cloneColumn (S := T n) (hnil t) ?_
      intro q hq
      exact howned q (List.mem_append_left _ (List.mem_filterMap.2 ⟨v, hv, hq⟩)) t ht
    have hbranch : ∀ v ∈ s.branches, ∀ t, store.Extends t →
        Yields (cloneBranch (cloneWithin n) v) t fun w =>
          T n ([v].filterMap Value.statement?) ([w].filterMap Value.statement?) t := by
      rintro v hv t ht
      refine yields_cloneBranch (S := T n) ?_
      rintro q rfl twin htwin
      exact (howned q (Statement.mem_owned.2 (.inr hv)) t ht twin htwin).2
    -- What is added for values in a row is what is added for the statements among them.
    have hvalues : ∀ (pick : Value → Option Ref) {vs vs' ws ws' : List Value} {t events u more v},
        T n (vs.filterMap pick) (ws.filterMap pick) t events u →
        T n (vs'.filterMap pick) (ws'.filterMap pick) u more v →
        T n ((vs ++ vs').filterMap pick) ((ws ++ ws').filterMap pick) t (events ++ more) v := by
      intro pick vs vs' ws ws' t events u more v ht hu
      rw [List.filterMap_append, List.filterMap_append]
      exact happend ht hu
    refine Yields.of_run_eq (run_cloneWithin_succ (hext.get?_of_eq_some hs) n) ?_
    refine (yields_mapM (T := fun vs ws => T n (vs.filterMap Value.subselect?)
      (ws.filterMap Value.subselect?)) hnil (hvalues _) hkeep hcolumn hext).bind ?_
    intro columns events t ht
    refine (yields_mapM (T := fun vs ws => T n (vs.filterMap Value.statement?)
      (ws.filterMap Value.statement?)) hnil (hvalues _) hkeep hbranch (hkeep hext ht)).bind ?_
    intro branches more u hu twin htwin
    cases htwin
    refine ⟨rfl, ?_⟩
    have h := hcopy hs ht hu
    rw [List.append_assoc] at h
    exact h

end Copying

/-- Copying a statement adds a copy for each occurrence in its tree, in their order, and logs
each. -/
theorem adds_clone (hclosed : store.Closed) {r twin : Ref}
    (h : ((clone r).run store).result = .ok twin) :
    store.Adds (store.occurrences r) store ((clone r).run store).events
      ((clone r).run store).state := by
  rw [result_clone] at h
  rw [run_clone_of_ok h]
  by_cases hr : r.index < store.size
  · have hadds := yields_cloneWithin (T := fun n refs _ =>
      store.Adds (refs.flatMap (store.occurrencesWithin n))) hclosed .nil ?_ Adds.extends ?_ hr
      (.refl store) twin h
    · simpa [occurrences] using hadds.2
    · intro n rs rs' _ _ t events u more v ht hu
      rw [List.flatMap_append]
      exact ht.append hu
    · intro n r s columns branches t events u more v hs ht hu
      rw [List.flatMap_singleton, occurrencesWithin_succ hs, Statement.owned, List.flatMap_append]
      exact (ht.append hu).append (adds_copy hs columns branches v)
  · have hnone : store.get? r = none := List.getElem?_eq_none (Nat.le_of_not_lt hr)
    rw [run_cloneWithin_succ_of_none hnone] at h
    cases h

end BoundQuery.Store
