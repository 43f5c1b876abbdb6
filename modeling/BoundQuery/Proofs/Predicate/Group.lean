import BoundQuery.Proofs.Predicate.Described
import BoundQuery.Proofs.Result

/-!
# How the conditions of a group are handed over

The conditions of a group are arguments of their own, or the items of a single argument. Whether a
single argument is a condition or holds the conditions is seen from its type alone. A predicate and
a mapping are conditions, so the way of handing over makes no difference: a group of one condition
is not taken apart, and a list of no condition is no group.

## Main definitions

* `Value.IsCondition`: predicates, and mappings that may describe one.

## Main statements

* `Compose.join_eq_ok`, `Compose.join_eq_error`: what a group is, and what it fails like.
* `Compose.join_forms_agree`: a group does not depend on how its conditions are handed over.
-/

namespace BoundQuery

/-- A predicate, or a mapping that may describe one. -/
inductive Value.IsCondition : Value → Prop where
  | predicate (p : Predicate Value) : IsCondition (.predicate p)
  | mapping (entries : List (Value × Value)) : IsCondition (.mapping entries)

namespace Compose

variable {joiner : Connective}

theorem conditions_eq_mapM (xs : List Value) : conditions xs = xs.mapM Predicate.ofValue? := by
  induction xs with
  | nil => rfl
  | cons v rest ih => rw [conditions, ih, List.mapM_cons]

/-- The group of some predicates; of none there is no group. -/
def group (joiner : Connective) : List (Predicate Value) → Except Failure (Predicate Value)
  | [] => .error (.emptyGroup joiner)
  | first :: rest => .ok (.junction joiner first rest)

theorem group_eq_ok {qs : List (Predicate Value)} {p : Predicate Value} :
    group joiner qs = .ok p ↔
      ∃ first rest, p = .junction joiner first rest ∧ qs = first :: rest := by
  cases qs <;> simp [group, eq_comm]

theorem group_eq_error {qs : List (Predicate Value)} {failure : Failure} :
    group joiner qs = .error failure ↔ qs = [] ∧ failure = .emptyGroup joiner := by
  cases qs <;> simp [group, eq_comm]

/-- Joining groups the predicates that the conditions are. -/
theorem join_eq_bind (joiner : Connective) (arguments : List Value) :
    join joiner arguments = (spread arguments).mapM Predicate.ofValue? >>= group joiner := by
  unfold join
  cases spread arguments with
  | nil => rfl
  | cons v more =>
    simp only [conditions_eq_mapM, List.mapM_cons, bind_assoc, pure_bind]
    rfl

/-- A group has the conditions that its arguments give, in their order. -/
theorem join_eq_ok {arguments : List Value} {p : Predicate Value} :
    join joiner arguments = .ok p ↔ ∃ first rest, p = .junction joiner first rest ∧
      List.Forall₂ (fun v q => Predicate.ofValue? v = .ok q) (spread arguments)
        (first :: rest) := by
  rw [join_eq_bind, Result.bind_eq_ok]
  constructor
  · rintro ⟨qs, hqs, h⟩
    obtain ⟨first, rest, rfl, rfl⟩ := group_eq_ok.1 h
    exact ⟨first, rest, rfl, Result.mapM_eq_ok.1 hqs⟩
  · rintro ⟨first, rest, rfl, h⟩
    exact ⟨first :: rest, Result.mapM_eq_ok.2 h, rfl⟩

/-- A group fails where there is no condition, and otherwise like the first that describes no
predicate. -/
theorem join_eq_error {arguments : List Value} {failure : Failure} :
    join joiner arguments = .error failure ↔
      spread arguments = [] ∧ failure = .emptyGroup joiner ∨
        ∃ before v after, spread arguments = before ++ v :: after ∧
          (∀ u ∈ before, ∃ q, Predicate.ofValue? u = .ok q) ∧
          Predicate.ofValue? v = .error failure := by
  rw [join_eq_bind, Result.bind_eq_error, Result.mapM_eq_error_iff, or_comm]
  refine or_congr_left ?_
  constructor
  · rintro ⟨qs, hqs, h⟩
    obtain ⟨rfl, rfl⟩ := group_eq_error.1 h
    exact ⟨List.forall₂_nil_right_iff.1 (Result.mapM_eq_ok.1 hqs), rfl⟩
  · rintro ⟨hnil, rfl⟩
    rw [hnil]
    exact ⟨[], rfl, rfl⟩

theorem spread_eq_self {xs : List Value} (hxs : ∀ v ∈ xs, v.IsCondition) : spread xs = xs := by
  rcases xs with _ | ⟨v, _ | ⟨w, rest⟩⟩
  · rfl
  · cases hxs v List.mem_cons_self <;> rfl
  · rfl

/-- Only a group without conditions is at fault for having none. -/
theorem argument?_ofValue? {v : Value} {failure : Failure}
    (h : Predicate.ofValue? v = .error failure) : failure.argument? ≠ some "predicates" := by
  unfold Predicate.ofValue? Decoded.toExcept at h
  split at h
  · cases h
  · cases h
    simp [Failure.argument?]
  · cases h
    simp [Failure.argument?]

/-- A group is the same whether its conditions are handed over one by one or as the items of a list,
a tuple or a stream. It has each of them as one condition, in the given order, or it fails: for want
of conditions where there are none, and otherwise like the first that describes no predicate. -/
theorem join_forms_agree (joiner : Connective) {xs : List Value}
    (hxs : ∀ v ∈ xs, v.IsCondition) :
    join joiner [.list xs] = join joiner xs ∧ join joiner [.tuple xs] = join joiner xs ∧
    join joiner [.stream xs] = join joiner xs ∧
    (∀ p, join joiner xs = .ok p ↔ ∃ first rest, p = .junction joiner first rest ∧
      List.Forall₂ (fun v q => Predicate.ofValue? v = .ok q) xs (first :: rest)) ∧
    (∀ failure, join joiner xs = .error failure ↔
      xs = [] ∧ failure = .emptyGroup joiner ∨
        ∃ before v after, xs = before ++ v :: after ∧
          (∀ u ∈ before, ∃ q, Predicate.ofValue? u = .ok q) ∧
          Predicate.ofValue? v = .error failure) ∧
    ∀ failure, join joiner xs = .error failure →
      (failure.family = .argument ∧ failure.argument? = some "predicates" ↔ xs = []) := by
  have hspread := spread_eq_self hxs
  have hitems : ∀ only : Value, spread [only] = xs → join joiner [only] = join joiner xs := by
    intro only honly
    rw [join, join, honly, hspread]
  refine ⟨hitems _ rfl, hitems _ rfl, hitems _ rfl, ?_, ?_, ?_⟩
  · intro p
    rw [join_eq_ok, hspread]
  · intro failure
    rw [join_eq_error, hspread]
  · intro failure h
    rw [join_eq_error, hspread] at h
    rcases h with ⟨rfl, rfl⟩ | ⟨before, v, after, rfl, -, hv⟩
    · simp [Failure.family, Failure.argument?]
    · simp [argument?_ofValue? hv]

def eitherNull : Predicate Value := .junction .or (.nullCheck "a" false) [.nullCheck "b" true]

/-- A null check, one without its expression, and a mapping whose tag is a list. -/
def nullChecks : List Value :=
  [.mapping [(.text "kind", .text "null_check"), (.text "expr", .text "a")],
    .mapping [(.text "kind", .text "null_check")], .mapping [(.text "kind", .list [])]]

theorem isCondition_nullChecks : ∀ v ∈ nullChecks, v.IsCondition := by
  simp only [nullChecks, List.forall_mem_cons]
  exact ⟨.mapping _, .mapping _, .mapping _, by simp⟩

/-- A group that is the only condition stays one, as an argument and as the item of a tuple. Of two
mappings that describe no predicate the first is what a group fails like. -/
theorem join_forms_agree_nested :
    (∀ v ∈ [Value.predicate eitherNull], v.IsCondition) ∧
    join .and [.predicate eitherNull] = .ok (.junction .and eitherNull []) ∧
    join .and [.tuple [.predicate eitherNull]] = .ok (.junction .and eitherNull []) ∧
    (∀ v ∈ nullChecks, v.IsCondition) ∧
    join .or [.stream nullChecks] =
      .error (.malformedPredicate [⟨[.field "null_check", .field "expr"], .missing⟩]) ∧
    join .or [.stream []] = .error (.emptyGroup .or) := by
  have hsingle : ∀ v ∈ [Value.predicate eitherNull], v.IsCondition :=
    List.forall_mem_singleton.2 (.predicate _)
  obtain ⟨-, htuple, -, hok, -⟩ := join_forms_agree .and hsingle
  obtain ⟨-, -, hstream, -, herror, -⟩ := join_forms_agree .or isCondition_nullChecks
  have hjoin := (hok _).2 ⟨_, [], rfl, .cons (Predicate.ofValue?_predicate _) .nil⟩
  refine ⟨hsingle, hjoin, htuple.trans hjoin, isCondition_nullChecks, ?_, ?_⟩
  · rw [hstream, herror]
    exact .inr ⟨nullChecks.take 1, nullChecks[1], nullChecks.drop 2, rfl,
      List.forall_mem_singleton.2 ⟨.nullCheck "a" false, rfl⟩, rfl⟩
  · have hnil : ∀ v ∈ ([] : List Value), v.IsCondition := fun _ h => absurd h List.not_mem_nil
    obtain ⟨-, -, hstream, -, herror, -⟩ := join_forms_agree .or hnil
    rw [hstream, herror]
    exact .inl ⟨rfl, rfl⟩

end Compose

end BoundQuery
