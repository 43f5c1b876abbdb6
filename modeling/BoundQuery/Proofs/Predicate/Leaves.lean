import BoundQuery.Proofs.Statement.Events

/-!
# The leaves of a predicate

A predicate contributes what its leaves contribute, from left to right: negations and groups add
nothing of their own. So a contribution that is refused got as far as the first IN without values,
and the sink took the operands of the leaves before it.

## Main definitions

* `Predicate.leaves`: the leaves, from left to right.
* `Predicate.HasEmptyIn`: there is an IN without values among the leaves.

## Main statements

* `Predicate.contribute_eq`: a predicate contributes what its leaves contribute.
* `Predicate.run_contribute_of_reject`: the contribution of a predicate to a sink that refuses INs
  without values, up to the first of them.
* `Predicate.exists_error_contribute_iff`: such a sink refuses the predicates that have one.
-/

namespace BoundQuery.Predicate

variable {α : Type}

mutual

/-- The leaves of a predicate, from left to right. -/
def leaves : Predicate α → List (Predicate α)
  | not child => child.leaves
  | junction _ first rest => first.leaves ++ leavesOfAll rest
  | p => [p]

def leavesOfAll : List (Predicate α) → List (Predicate α)
  | [] => []
  | p :: rest => p.leaves ++ leavesOfAll rest

end

/-- The expression of a leaf that is an IN without values. -/
def emptyIn? : Predicate α → Option String
  | isIn expr [] => some expr
  | _ => none

/-- One of the leaves is an IN without values. -/
def HasEmptyIn (p : Predicate α) : Prop := ∃ expr, isIn expr [] ∈ p.leaves

theorem emptyIn?_eq_some_iff {p : Predicate α} {expr : String} :
    p.emptyIn? = some expr ↔ p = isIn expr [] := by
  cases p with
  | isIn expr' values => cases values <;> simp [emptyIn?]
  | _ => simp [emptyIn?]

mutual

theorem operands_eq_leaves (p : Predicate α) : p.operands = p.leaves.flatMap operands := by
  match p with
  | comparison .. | between .. | isIn .. | nullCheck .. => simp [leaves]
  | not child => exact operands_eq_leaves child
  | junction joiner first rest =>
    rw [operands, leaves, List.flatMap_append, operands_eq_leaves first,
      operandsOfAll_eq_leaves rest]

theorem operandsOfAll_eq_leaves (ps : List (Predicate α)) :
    operandsOfAll ps = (leavesOfAll ps).flatMap operands := by
  match ps with
  | [] => rfl
  | p :: rest =>
    rw [operandsOfAll, leavesOfAll, List.flatMap_append, operands_eq_leaves p,
      operandsOfAll_eq_leaves rest]

end

mutual

theorem emptyIns_eq_leaves (p : Predicate α) : p.emptyIns = p.leaves.filterMap emptyIn? := by
  match p with
  | comparison .. | between .. | nullCheck .. => simp [leaves, emptyIns, emptyIn?]
  | isIn _ [] | isIn _ (_ :: _) => simp [leaves, emptyIns, emptyIn?]
  | not child => simpa [leaves, emptyIns] using emptyIns_eq_leaves child
  | junction joiner first rest =>
    rw [emptyIns, leaves, List.filterMap_append, emptyIns_eq_leaves first,
      emptyInsOfAll_eq_leaves rest]

theorem emptyInsOfAll_eq_leaves (ps : List (Predicate α)) :
    emptyInsOfAll ps = (leavesOfAll ps).filterMap emptyIn? := by
  match ps with
  | [] => rfl
  | p :: rest =>
    rw [emptyInsOfAll, leavesOfAll, List.filterMap_append, emptyIns_eq_leaves p,
      emptyInsOfAll_eq_leaves rest]

end

theorem emptyIns_eq_nil_iff {p : Predicate α} : p.emptyIns = [] ↔ ¬ p.HasEmptyIn := by
  rw [emptyIns_eq_leaves, List.filterMap_eq_nil_iff]
  simp only [HasEmptyIn, Option.eq_none_iff_forall_ne_some, ne_eq, emptyIn?_eq_some_iff,
    not_exists]
  constructor
  · intro h expr hmem
    exact h _ hmem expr rfl
  · rintro h q hq expr rfl
    exact h expr hq

/-- Of leaves with an IN without values among them, there is a first one. -/
theorem HasEmptyIn.exists_first {p : Predicate α} (h : p.HasEmptyIn) :
    ∃ before expr after, p.leaves = before ++ isIn expr [] :: after ∧
      ∀ name, isIn name [] ∉ before := by
  obtain ⟨name, hmem⟩ := h
  have hsome : (p.leaves.find? fun q => q.emptyIn?.isSome).isSome := by
    rw [List.find?_isSome]
    exact ⟨_, hmem, rfl⟩
  obtain ⟨q, hq⟩ := Option.isSome_iff_exists.1 hsome
  obtain ⟨hempty, before, after, hleaves, hbefore⟩ := List.find?_eq_some_iff_append.1 hq
  obtain ⟨expr, hexpr⟩ := Option.isSome_iff_exists.1 hempty
  refine ⟨before, expr, after, ?_, ?_⟩
  · rw [hleaves, emptyIn?_eq_some_iff.1 hexpr]
  · intro name hname
    simpa [emptyIn?] using hbefore _ hname

mutual

/-- A leaf has no leaf but itself. -/
theorem leaves_of_mem_leaves {p q : Predicate α} (h : q ∈ p.leaves) : q.leaves = [q] := by
  match p with
  | comparison .. | between .. | isIn .. | nullCheck .. =>
    rw [leaves, List.mem_singleton] at h
    all_goals simp [h, leaves]
  | not child =>
    rw [leaves] at h
    exact leaves_of_mem_leaves h
  | junction joiner first rest =>
    rw [leaves] at h
    rcases List.mem_append.1 h with h | h
    · exact leaves_of_mem_leaves h
    · exact leaves_of_mem_leavesOfAll h

theorem leaves_of_mem_leavesOfAll {ps : List (Predicate α)} {q : Predicate α}
    (h : q ∈ leavesOfAll ps) : q.leaves = [q] := by
  match ps with
  | [] => cases h
  | p :: rest =>
    rw [leavesOfAll] at h
    rcases List.mem_append.1 h with h | h
    · exact leaves_of_mem_leaves h
    · exact leaves_of_mem_leavesOfAll h

end

theorem leavesOfAll_of_leaves {qs : List (Predicate α)} (h : ∀ q ∈ qs, q.leaves = [q]) :
    leavesOfAll qs = qs := by
  induction qs with
  | nil => rfl
  | cons q rest ih =>
    rw [leavesOfAll, h q List.mem_cons_self, ih fun r hr => h r (List.mem_cons_of_mem q hr)]
    rfl

section

variable {σ : Type} [ParameterSink σ α]

theorem contributeAll_append (ps qs : List (Predicate α)) :
    (contributeAll (ps ++ qs) : Run σ Unit) = contributeAll ps >>= fun _ => contributeAll qs := by
  induction ps with
  | nil => simp [contributeAll]
  | cons p rest ih => simp [contributeAll, ih]

theorem contributeAll_singleton (p : Predicate α) :
    (contributeAll [p] : Run σ Unit) = contribute p := by
  simp [contributeAll]

mutual

/-- A predicate contributes what its leaves contribute, one after the other. -/
theorem contribute_eq (p : Predicate α) :
    (contribute p : Run σ Unit) = contributeAll p.leaves := by
  match p with
  | comparison .. | between .. | isIn .. | nullCheck .. =>
    rw [leaves, contributeAll_singleton]
    all_goals simp
  | not child => rw [contribute, leaves, contribute_eq child]
  | junction _ first rest =>
    rw [contribute, leaves, contributeAll_append, contribute_eq first, contributeAll_eq rest]

/-- The same for conditions. -/
theorem contributeAll_eq (ps : List (Predicate α)) :
    (contributeAll ps : Run σ Unit) = contributeAll (leavesOfAll ps) := by
  match ps with
  | [] => rfl
  | p :: rest =>
    rw [contributeAll, leavesOfAll, contributeAll_append, contribute_eq p, contributeAll_eq rest]

end

/-- Conditions without an IN that could be refused are taken whole, and nothing is logged. -/
theorem run_contributeAll_of_emptyIns_eq_nil {ps : List (Predicate α)} (h : emptyInsOfAll ps = [])
    (sink : σ) :
    (contributeAll ps : Run σ Unit).run sink =
      ⟨(operandsOfAll ps).foldl ParameterSink.push sink, [], .ok ()⟩ := by
  have hresult := result_contributeAll ps sink
  rw [h, Settings.accept_nil] at hresult
  obtain ⟨taken, -, hstate, hall⟩ := exists_taken_contributeAll ps sink
  have hevents : ((contributeAll ps : Run σ Unit).run sink).events = [] := by
    cases hpolicy : (ParameterSink.settings sink).emptyIn with
    | reject => exact events_contributeAll_of_reject ps sink hpolicy
    | render => rw [run_contributeAll_of_render ps sink hpolicy, h, List.map_nil]
  rw [hall hresult] at hstate
  exact Outcome.ext hstate hevents hresult

/-- A sink that refuses INs without values takes the operands of the leaves before the first of
them, and no others. -/
theorem run_contribute_of_reject {p : Predicate α} {sink : σ}
    (hpolicy : (ParameterSink.settings sink).emptyIn = .reject) {before after : List (Predicate α)}
    {expr : String} (hleaves : p.leaves = before ++ isIn expr [] :: after)
    (hbefore : ∀ name, isIn name [] ∉ before) :
    (contribute p : Run σ Unit).run sink =
      ⟨(before.flatMap operands).foldl ParameterSink.push sink, [], .error (.emptyIn expr)⟩ := by
  have hleaf : leavesOfAll before = before := by
    refine leavesOfAll_of_leaves fun q hq => leaves_of_mem_leaves (p := p) ?_
    rw [hleaves]
    exact List.mem_append_left _ hq
  have hempty : emptyInsOfAll before = [] := by
    rw [emptyInsOfAll_eq_leaves, hleaf, List.filterMap_eq_nil_iff]
    intro q hq
    rw [Option.eq_none_iff_forall_ne_some]
    intro name hname
    exact hbefore name (emptyIn?_eq_some_iff.1 hname ▸ hq)
  rw [contribute_eq, hleaves, contributeAll_append, Run.run_bind,
    run_contributeAll_of_emptyIns_eq_nil hempty, operandsOfAll_eq_leaves, hleaf]
  simp [contributeAll, contribute, contributeEmpty, hpolicy]

/-- A predicate without an IN that could be refused is taken whole, and nothing is logged. -/
theorem run_contribute_of_not_hasEmptyIn {p : Predicate α} (h : ¬ p.HasEmptyIn) (sink : σ) :
    (contribute p : Run σ Unit).run sink =
      ⟨p.operands.foldl ParameterSink.push sink, [], .ok ()⟩ := by
  have hempty : emptyInsOfAll [p] = [] := by
    rw [emptyInsOfAll, emptyIns_eq_nil_iff.2 h]
    rfl
  have hrun := run_contributeAll_of_emptyIns_eq_nil hempty sink
  rwa [contributeAll_singleton, operandsOfAll, operandsOfAll, List.append_nil] at hrun

/-- A sink that refuses INs without values refuses the predicates that have one. -/
theorem exists_error_contribute_iff {p : Predicate α} {sink : σ}
    (hpolicy : (ParameterSink.settings sink).emptyIn = .reject) :
    (∃ failure, ((contribute p : Run σ Unit).run sink).result = .error failure) ↔
      p.HasEmptyIn := by
  constructor
  · rintro ⟨failure, hfailure⟩
    by_contra hnone
    rw [run_contribute_of_not_hasEmptyIn hnone] at hfailure
    cases hfailure
  · intro h
    obtain ⟨before, expr, after, hleaves, hbefore⟩ := h.exists_first
    rw [run_contribute_of_reject hpolicy hleaves hbefore]
    exact ⟨_, rfl⟩

end

end BoundQuery.Predicate
