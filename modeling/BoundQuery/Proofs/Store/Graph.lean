import BoundQuery.Proofs.Result
import BoundQuery.Proofs.Value.Shown
import BoundQuery.Statement.Compiled
import Mathlib.Data.Finset.Card
import Mathlib.Data.Finset.Range
import Mathlib.Logic.Relation

/-!
# Statements inside statements

A statement of a store shows others by their places. Where none is reached from itself, the depth
to which statements are inside one another is bounded by their number, so texts and compiled
statements do not depend on how deep they may go. Both depend on the reached statements alone.

## Main definitions

* `Store.Shows`, `Store.Reaches`: what a statement takes in, at once and at any depth.
* `Store.Acyclic`: no statement is a part of itself.
* `Store.Within`: a bound of the depth below a statement.
* `Store.view`: what a statement shows to its users.

## Main statements

* `Store.within_of_acyclic`: the number of statements bounds the depth.
* `Store.text_congr`, `Store.compile_congr`, `Store.view_congr`: a later store that has the reached
  statements unchanged gives the same.
-/

namespace BoundQuery.Store

/-- The statement in one place shows the one in another. -/
def Shows (store : Store) (i j : Nat) : Prop :=
  ∃ s, store.statements[i]? = some s ∧ ∃ q ∈ s.shown, q.index = j

/-- The statement in one place takes in the one in another, at any depth. -/
def Reaches (store : Store) : Nat → Nat → Prop := Relation.ReflTransGen store.Shows

/-- No statement is a part of itself. -/
def Acyclic (store : Store) : Prop := ∀ i, ¬ Relation.TransGen store.Shows i i

/-- Chains of statements that start in a given place have less than so many links. -/
def Within (store : Store) : Nat → Nat → Prop
  | 0, _ => False
  | depth + 1, i => ∀ j, store.Shows i j → store.Within depth j

theorem Shows.lt_size {store : Store} {i j : Nat} (h : store.Shows i j) : i < store.size := by
  obtain ⟨s, hs, -⟩ := h
  exact (List.getElem?_eq_some_iff.1 hs).1

theorem shows_of_get? {store : Store} {r q : Ref} {s : Statement} (hs : store.get? r = some s)
    (hq : q ∈ s.shown) : store.Shows r.index q.index := ⟨s, hs, q, hq, rfl⟩

theorem Within.mono {store : Store} {n m i : Nat} (h : store.Within n i) (hle : n ≤ m) :
    store.Within m i := by
  induction m generalizing n i with
  | zero =>
    have hn : n = 0 := by omega
    rw [hn] at h
    exact h
  | succ m ih =>
    cases n with
    | zero => exact h.elim
    | succ n =>
      intro j hj
      exact ih (h j hj) (by omega)

theorem Within.of_reaches {store : Store} {n i j : Nat} (h : store.Within n i)
    (hij : store.Reaches i j) : store.Within n j := by
  induction hij with
  | refl => exact h
  | tail _ hjk ih =>
    cases n with
    | zero => exact ih.elim
    | succ n => exact (ih _ hjk).mono (Nat.le_succ n)

/-- Where no statement is a part of itself, what one shows does not take it in. -/
theorem Acyclic.not_reaches {store : Store} (h : store.Acyclic) {r q : Ref} {s : Statement}
    (hs : store.get? r = some s) (hq : q ∈ s.shown) : ¬ store.Reaches q.index r.index := by
  intro hback
  exact h r.index (.head' (shows_of_get? hs hq) hback)

/-- A chain of links that goes deeper than a bound passes through that many places. -/
private theorem exists_chain_of_not_within {store : Store} (n : Nat) {i : Nat}
    (h : ¬ store.Within n i) :
    ∃ chain : List Nat, chain.length = n ∧ (∀ k ∈ chain, k < store.size) ∧
      (∀ k ∈ chain, store.Reaches i k) ∧ chain.Pairwise (Relation.TransGen store.Shows) := by
  induction n generalizing i with
  | zero => exact ⟨[], rfl, by simp, by simp, .nil⟩
  | succ n ih =>
    simp only [Within, not_forall] at h
    obtain ⟨j, hij, hj⟩ := h
    obtain ⟨chain, hlength, hsize, hreach, hpair⟩ := ih hj
    refine ⟨i :: chain, by simp [hlength], ?_, ?_, ?_⟩
    · intro k hk
      rcases List.mem_cons.1 hk with rfl | hk
      · exact hij.lt_size
      · exact hsize k hk
    · intro k hk
      rcases List.mem_cons.1 hk with rfl | hk
      · exact Relation.ReflTransGen.refl
      · exact Relation.ReflTransGen.head hij (hreach k hk)
    · refine List.pairwise_cons.2 ⟨?_, hpair⟩
      intro k hk
      exact Relation.TransGen.head' hij (hreach k hk)

/-- The number of statements bounds the depth to which they are inside one another. -/
theorem within_of_acyclic {store : Store} (h : store.Acyclic) (i : Nat) :
    store.Within (store.size + 1) i := by
  by_contra hi
  -- A chain with more places than there are statements would come to one of them twice.
  obtain ⟨chain, hlength, hsize, -, hpair⟩ := exists_chain_of_not_within _ hi
  have hnodup : chain.Nodup := by
    refine hpair.imp ?_
    rintro j k hjk rfl
    exact h j hjk
  have hsub : chain.toFinset ⊆ Finset.range store.size := by
    intro k hk
    exact Finset.mem_range.2 (hsize k (List.mem_toFinset.1 hk))
  have hcard := Finset.card_le_card hsub
  rw [List.toFinset_card_of_nodup hnodup, hlength, Finset.card_range] at hcard
  omega

/-! ## Texts -/

theorem textWithin_succ {store : Store} {r : Ref} {s : Statement} (hs : store.get? r = some s)
    (n : Nat) : store.textWithin (n + 1) r = s.text (store.textWithin n) r.variant := by
  simp only [textWithin, find, hs]
  rfl

theorem textWithin_succ_of_none {store : Store} {r : Ref} (hr : store.get? r = none) (n : Nat) :
    store.textWithin (n + 1) r = .error .unknownStatement := by
  simp only [textWithin, find, hr]
  rfl

/-- The text of a statement does not depend on how deep it may go, once that is deep enough. -/
theorem textWithin_of_within {store : Store} {n m : Nat} {r : Ref} (h : store.Within n r.index)
    (hle : n ≤ m) : store.textWithin m r = store.textWithin n r := by
  induction n generalizing m r with
  | zero => exact h.elim
  | succ n ih =>
    obtain ⟨m, rfl⟩ : ∃ k, m = k + 1 := ⟨m - 1, by omega⟩
    cases hs : store.get? r with
    | none => rw [textWithin_succ_of_none hs, textWithin_succ_of_none hs]
    | some s =>
      rw [textWithin_succ hs, textWithin_succ hs]
      refine s.text_congr ?_ r.variant
      intro q hq
      exact ih (h _ (shows_of_get? hs hq)) (by omega)

/-- Where no statement is a part of itself, a text is made of the texts of what is shown. -/
theorem Acyclic.text_eq {store : Store} (h : store.Acyclic) {r : Ref} {s : Statement}
    (hs : store.get? r = some s) : store.text r = s.text store.text r.variant := by
  rw [text_of_get? hs]
  refine s.text_congr (fun q hq => (textWithin_of_within ?_ (Nat.le_succ _)).symm) r.variant
  exact within_of_acyclic h r.index q.index (shows_of_get? hs hq)

section Agreement

variable {store later : Store}

theorem textWithin_congr (n : Nat) {r : Ref}
    (h : ∀ j, store.Reaches r.index j → later.statements[j]? = store.statements[j]?) :
    later.textWithin n r = store.textWithin n r := by
  induction n generalizing r with
  | zero => rfl
  | succ n ih =>
    have hr : later.get? r = store.get? r := h r.index .refl
    cases hs : store.get? r with
    | none => rw [textWithin_succ_of_none hs, textWithin_succ_of_none (hr.trans hs)]
    | some s =>
      rw [textWithin_succ hs, textWithin_succ (hr.trans hs)]
      refine s.text_congr ?_ r.variant
      intro q hq
      refine ih ?_
      intro j hj
      exact h j (.head (shows_of_get? hs hq) hj)

/-- A later store that has the reached statements unchanged gives the same text. -/
theorem text_congr {r : Ref} (hw : store.Within (store.size + 1) r.index)
    (hle : store.size ≤ later.size)
    (h : ∀ j, store.Reaches r.index j → later.statements[j]? = store.statements[j]?) :
    later.text r = store.text r := by
  calc later.text r
    _ = store.textWithin (later.size + 1) r := textWithin_congr _ h
    _ = store.text r := textWithin_of_within hw (by omega)

end Agreement

end BoundQuery.Store

namespace BoundQuery

/-! ## Compiled statements -/

theorem Value.subselect?_eq_some {v : Value} {r : Ref} :
    v.subselect? = some r ↔ v = .statement r ∧ r.variant = .subselect := by
  rcases r with ⟨variant, index⟩
  constructor
  · intro h
    unfold subselect? at h
    split at h
    · cases h
      exact ⟨rfl, rfl⟩
    · cases h
  · rintro ⟨rfl, hvariant⟩
    cases hvariant
    rfl

theorem Value.branch_eq_ok {request : String} {v : Value} {r : Ref} :
    v.branch request = .ok r ↔ v = .statement r := by
  cases v <;> simp [Value.branch]

/-- The subselects of a statement are among what it shows. -/
theorem Statement.mem_shown_of_mem_subselects {s : Statement} {r : Ref} (h : r ∈ s.subselects) :
    r ∈ s.shown := by
  obtain ⟨v, hv, hr⟩ := List.mem_filterMap.1 h
  rw [(Value.subselect?_eq_some.1 hr).1] at hv
  simp only [shown, List.mem_append, List.mem_flatMap]
  exact .inl (.inl ⟨_, hv, List.mem_cons_self⟩)

theorem Statement.mem_shown_of_mem_branches {s : Statement} {r : Ref}
    (h : .statement r ∈ s.branches) : r ∈ s.shown := by
  simp only [shown, List.mem_append, List.mem_flatMap]
  exact .inl (.inr ⟨_, h, List.mem_cons_self⟩)

/-- What a statement shows decides the statement compiled, beside its text. -/
theorem Statement.compileFrom_congr {f g : Ref → Except Failure Compiled} (s : Statement)
    (h : ∀ q ∈ s.shown, f q = g q) (text : Except Failure String) :
    s.compileFrom f text = s.compileFrom g text := by
  have hcolumns : s.subselects.mapM f = s.subselects.mapM g :=
    Result.mapM_congr fun q hq => h q (mem_shown_of_mem_subselects hq)
  have hbranches : (s.branches.mapM fun v => (v.branch "build") >>= f) =
      s.branches.mapM fun v => (v.branch "build") >>= g := by
    refine Result.mapM_congr ?_
    intro v hv
    rcases hr : v.branch "build" with failure | q
    · rfl
    · rw [Value.branch_eq_ok] at hr
      rw [hr] at hv
      exact h q (mem_shown_of_mem_branches hv)
  simp only [compileFrom, hcolumns, hbranches]

/-- What a statement shows to its users: its text, the statement compiled, and its bound values. -/
structure View where
  text : Except Failure String
  compiled : Except Failure Compiled
  bound : Option (List Value)

namespace Store

/-- What a statement of a store shows to its users. -/
def view (store : Store) (r : Ref) : View :=
  ⟨store.text r, store.compile r, (store.get? r).map (·.bound)⟩

theorem compileWithin_succ {store : Store} {r : Ref} {s : Statement} (hs : store.get? r = some s)
    (n : Nat) :
    store.compileWithin (n + 1) r = s.compileFrom (store.compileWithin n) (store.text r) := by
  simp only [compileWithin, find, hs]
  rfl

theorem compileWithin_succ_of_none {store : Store} {r : Ref} (hr : store.get? r = none) (n : Nat) :
    store.compileWithin (n + 1) r = .error .unknownStatement := by
  simp only [compileWithin, find, hr]
  rfl

/-- What a statement compiles to has its text. -/
theorem text_of_compileWithin {store : Store} {n : Nat} {r : Ref} {c : Compiled}
    (hc : store.compileWithin n r = .ok c) : store.text r = .ok c.sql := by
  cases n with
  | zero => cases hc
  | succ n =>
    cases hs : store.get? r with
    | none =>
      rw [compileWithin_succ_of_none hs] at hc
      cases hc
    | some s =>
      rw [compileWithin_succ hs] at hc
      obtain ⟨cs, -, hc⟩ := Result.bind_eq_ok.1 hc
      obtain ⟨bs, -, hc⟩ := Result.bind_eq_ok.1 hc
      obtain ⟨sql, hsql, hc⟩ := Result.bind_eq_ok.1 hc
      cases hc
      exact hsql

section Agreement

variable {store later : Store}

/-- A statement compiled does not depend on how deep its parts may go, once that is deep enough,
and only on the reached statements. -/
theorem compileWithin_congr {n m : Nat} {r : Ref} (hw : store.Within n r.index) (hle : n ≤ m)
    (htext : ∀ q : Ref, store.Reaches r.index q.index → later.text q = store.text q)
    (h : ∀ j, store.Reaches r.index j → later.statements[j]? = store.statements[j]?) :
    later.compileWithin m r = store.compileWithin n r := by
  induction n generalizing m r with
  | zero => exact hw.elim
  | succ n ih =>
    obtain ⟨m, rfl⟩ : ∃ k, m = k + 1 := ⟨m - 1, by omega⟩
    have hr : later.get? r = store.get? r := h r.index .refl
    cases hs : store.get? r with
    | none => rw [compileWithin_succ_of_none hs, compileWithin_succ_of_none (hr.trans hs)]
    | some s =>
      rw [compileWithin_succ hs, compileWithin_succ (hr.trans hs), htext r .refl]
      refine s.compileFrom_congr ?_ _
      intro q hq
      have hrq := shows_of_get? hs hq
      exact ih (hw _ hrq) (by omega) (fun p hp => htext p (.head hrq hp))
        fun j hj => h j (.head hrq hj)

/-- A statement compiled does not depend on how deep its parts may go, once that is deep enough. -/
theorem compileWithin_of_within {n m : Nat} {r : Ref} (hw : store.Within n r.index) (hle : n ≤ m) :
    store.compileWithin m r = store.compileWithin n r :=
  compileWithin_congr hw hle (fun _ _ => rfl) fun _ _ => rfl

/-- Where no statement is a part of itself, what a statement compiles to is made of what is owned
compiled, and of its text. -/
theorem Acyclic.compile_eq (h : store.Acyclic) {r : Ref} {s : Statement}
    (hs : store.get? r = some s) :
    store.compile r = s.compileFrom store.compile (store.text r) := by
  rw [compile, compileWithin_succ hs]
  refine s.compileFrom_congr ?_ _
  intro q hq
  exact (compileWithin_of_within (within_of_acyclic h r.index q.index (shows_of_get? hs hq))
    (Nat.le_succ _)).symm

/-- A later store that has the reached statements unchanged compiles to the same. -/
theorem compile_congr {r : Ref} (hw : store.Within (store.size + 1) r.index)
    (hle : store.size ≤ later.size)
    (h : ∀ j, store.Reaches r.index j → later.statements[j]? = store.statements[j]?) :
    later.compile r = store.compile r := by
  refine compileWithin_congr hw (by omega) ?_ h
  intro q hq
  exact text_congr (hw.of_reaches hq) hle fun j hj => h j (hq.trans hj)

/-- A later store that has the reached statements unchanged shows the same to its users. -/
theorem view_congr {r : Ref} (hw : store.Within (store.size + 1) r.index)
    (hle : store.size ≤ later.size)
    (h : ∀ j, store.Reaches r.index j → later.statements[j]? = store.statements[j]?) :
    later.view r = store.view r := by
  have hr : later.get? r = store.get? r := h r.index .refl
  rw [view, text_congr hw hle h, compile_congr hw hle h, hr]
  rfl

end Agreement

end Store

end BoundQuery
