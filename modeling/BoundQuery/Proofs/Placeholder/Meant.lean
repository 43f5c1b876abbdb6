import BoundQuery.Proofs.Placeholder.Supplied

/-!
# What statements mean

What a statement of a store means is its filled text, supplied with the values that are bound
directly, with the subselects among its columns and its branches supplied in turn. Where all of them
are supplied statements, it is the text of the statement with a value for every placeholder, and the
values are those that the statement compiles to.

## Main definitions

* `Store.meant`: what statements mean.
* `Store.AllFrom`: what holds of a statement and of all that it takes in.
* `Store.SubselectsFirst`: no column with a placeholder comes before a subselect that binds a value.

## Main statements

* `Store.erases_meantWithin`, `Store.openMarks_meantWithin`: what is meant is a text with a value
  for every placeholder.
* `Store.agree_meantWithin`: the values are those of the statement compiled.
-/

namespace BoundQuery

namespace Store

/-- What statements mean, at most so deep. -/
def meantWithin (store : Store) : Nat → Ref → Filling
  | 0, _ => .error .cyclic
  | depth + 1, r => do
    let s ← store.find r
    s.meant (meantWithin store depth) r.variant

/-- What statements mean. -/
def meant (store : Store) (r : Ref) : Filling := store.meantWithin (store.size + 1) r

theorem meantWithin_succ {store : Store} {r : Ref} {s : Statement} (hs : store.get? r = some s)
    (n : Nat) : store.meantWithin (n + 1) r = s.meant (store.meantWithin n) r.variant := by
  simp only [meantWithin, find, hs]
  rfl

theorem meantWithin_succ_of_none {store : Store} {r : Ref} (hr : store.get? r = none) (n : Nat) :
    store.meantWithin (n + 1) r = .error .unknownStatement := by
  simp only [meantWithin, find, hr]
  rfl

/-- What holds of a statement and of all that it takes in. -/
def AllFrom (store : Store) (P : Statement → Prop) (i : Nat) : Prop :=
  ∀ j s, store.Reaches i j → store.statements[j]? = some s → P s

theorem AllFrom.self {store : Store} {P : Statement → Prop} {r : Ref} {s : Statement}
    (h : store.AllFrom P r.index) (hs : store.get? r = some s) : P s := h r.index s .refl hs

theorem AllFrom.of_shown {store : Store} {P : Statement → Prop} {r q : Ref} {s : Statement}
    (h : store.AllFrom P r.index) (hs : store.get? r = some s) (hq : q ∈ s.shown) :
    store.AllFrom P q.index :=
  fun j t hj ht => h j t (.head (shows_of_get? hs hq) hj) ht

theorem AllFrom.of_forall {store : Store} {P : Statement → Prop}
    (h : ∀ s ∈ store.statements, P s) (i : Nat) : store.AllFrom P i :=
  fun _ s _ hs => h s (List.mem_of_getElem? hs)

/-- No column with a placeholder comes before a subselect that binds a value. -/
def SubselectsFirst (store : Store) (s : Statement) : Prop :=
  s.columns.Pairwise fun u v => '?' ∈ u.raw →
    ∀ q, v.subselect? = some q → store.AllFrom (fun t => t.bound = []) q.index

variable {store : Store}

/-- What supplied statements mean is their text, but for values. -/
theorem erases_meantWithin (n : Nat) {r : Ref} (h : store.AllFrom Statement.Supplied r.index) :
    Erases (store.textWithin n r) (store.meantWithin n r) := by
  induction n generalizing r with
  | zero =>
    intro t ht
    cases ht
  | succ n ih =>
    cases hs : store.get? r with
    | none =>
      rw [textWithin_succ_of_none hs]
      intro t ht
      cases ht
    | some s =>
      rw [textWithin_succ hs, meantWithin_succ hs]
      exact (h.self hs).erases_meant (fun q hq => ih (h.of_shown hs hq)) r.variant

/-- No placeholder stays open in what supplied statements mean. -/
theorem openMarks_meantWithin (n : Nat) {r : Ref} (h : store.AllFrom Statement.Supplied r.index)
    {ts : List (Token Value)} (hts : store.meantWithin n r = .ok ts) : openMarks ts = 0 := by
  induction n generalizing r ts with
  | zero => cases hts
  | succ n ih =>
    cases hs : store.get? r with
    | none =>
      rw [meantWithin_succ_of_none hs] at hts
      cases hts
    | some s =>
      rw [meantWithin_succ hs] at hts
      exact (h.self hs).openMarks_meant (fun q hq us hus => ih (h.of_shown hs hq) hus) hts

/-- Where nothing is bound, nothing is compiled in. -/
theorem params_of_bound_eq_nil (n : Nat) {r : Ref}
    (h : store.AllFrom (fun s => s.bound = []) r.index) {c : Compiled}
    (hc : store.compileWithin n r = .ok c) : c.params = [] := by
  induction n generalizing r c with
  | zero => cases hc
  | succ n ih =>
    cases hs : store.get? r with
    | none =>
      rw [compileWithin_succ_of_none hs] at hc
      cases hc
    | some s =>
      rw [compileWithin_succ hs] at hc
      obtain ⟨cs, hcs, hc⟩ := Result.bind_eq_ok.1 hc
      obtain ⟨bs, hbs, hc⟩ := Result.bind_eq_ok.1 hc
      obtain ⟨sql, -, hc⟩ := Result.bind_eq_ok.1 hc
      cases hc
      have hcolumns : cs.flatMap (·.params) = [] :=
        flatMap_params_eq_nil (fun q hq d hd =>
          ih (h.of_shown hs (Statement.mem_shown_of_mem_subselects hq)) hd) hcs
      have hbranches : bs.flatMap (·.params) = [] := by
        refine flatMap_params_eq_nil (fun v hv d hd => ?_) hbs
        obtain ⟨q, hq, hd⟩ := Result.bind_eq_ok.1 hd
        rw [Value.branch_eq_ok.1 hq] at hv
        exact ih (h.of_shown hs (Statement.mem_shown_of_mem_branches hv)) hd
      have hown : s.boundInOrder = [] := by
        have hbound : s.bound = [] := h.self hs
        simp [Statement.boundInOrder, hbound]
      simp only [hcolumns, hown, hbranches, List.append_nil]

/-- The values that supplied statements mean are those that they compile to: in the same order where
subselects come first. -/
theorem agree_meantWithin
    (hoperands : ∀ s ∈ store.statements, ∀ filter,
      s.boundIn (.conditions filter) = (s.conditions filter).flatMap (·.predicate.operands))
    (n m : Nat) {r : Ref} (h : store.AllFrom Statement.Supplied r.index) {ts : List (Token Value)}
    (hts : store.meantWithin m r = .ok ts) {c : Compiled}
    (hc : store.compileWithin n r = .ok c) :
    Agree (store.AllFrom store.SubselectsFirst r.index) (values ts) c.params := by
  -- The depths need not agree: where one of them runs out there is nothing to compare.
  induction n generalizing m r ts c with
  | zero => cases hc
  | succ n ih =>
    cases m with
    | zero => cases hts
    | succ m =>
      cases hs : store.get? r with
      | none =>
        rw [meantWithin_succ_of_none hs] at hts
        cases hts
      | some s =>
        rw [meantWithin_succ hs] at hts
        rw [compileWithin_succ hs] at hc
        refine (h.self hs).agree_meant (hoperands s (List.mem_of_getElem? hs)) ?_ ?_ ?_ hts hc
        · exact fun q hq us hus => openMarks_meantWithin m (h.of_shown hs hq) hus
        · intro q hq us d hus hd
          exact (ih m (h.of_shown hs hq) hus hd).mono fun hfirst => hfirst.of_shown hs hq
        · intro hfirst
          refine (hfirst.self hs).imp fun hnothing hpos q hq d hd => ?_
          exact params_of_bound_eq_nil n (hnothing hpos q hq) hd

theorem text_of_compile {r : Ref} {c : Compiled} (hc : store.compile r = .ok c) :
    store.text r = .ok c.sql := text_of_compileWithin hc

end Store

end BoundQuery
