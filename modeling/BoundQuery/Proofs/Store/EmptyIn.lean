import BoundQuery.Proofs.Predicate.Leaves
import BoundQuery.Proofs.Store.Actions

/-!
# INs without values

Whether an IN without values is refused is up to the sink, and neither negations nor groups hide
one: a contribution is refused exactly if there is one among the leaves, and otherwise every one of
them is worth a warning. A statement that refuses them therefore has no condition with one in it,
whatever was done before, for its settings never change and a copy has those of its original.

## Main definitions

* `Statement.Refusing`: no condition of a statement holds what its settings refuse.

## Main statements

* `Store.refusing_after`: what the settings of a statement refuse is in none of its conditions,
  after any actions.
* `emptyIn_policy`: the policy, for a contribution and for the statements of a session.
-/

namespace BoundQuery

/-- Where INs without values are refused, no condition has one. -/
def Statement.Refusing (s : Statement) : Prop :=
  s.settings.emptyIn = .reject →
    ∀ filter, ∀ c ∈ s.conditions filter, ¬ c.predicate.HasEmptyIn

/-- What is let through where INs without values are refused has none. -/
theorem Settings.not_hasEmptyIn_of_accept {settings : Settings} {p : Predicate Value}
    (hpolicy : settings.emptyIn = .reject) (h : settings.accept p.emptyIns = .ok ()) :
    ¬ p.HasEmptyIn := by
  rw [← Predicate.emptyIns_eq_nil_iff]
  cases hempty : p.emptyIns with
  | nil => rfl
  | cons expr rest =>
    simp [hempty, Settings.accept, hpolicy] at h

namespace Statement

theorem refusing_blank (label : Value) (settings : Settings) :
    (blank label settings).Refusing := by
  intro _ filter c hc
  cases filter <;> cases hc

theorem refusing_ofSource (source : Value) (settings : Settings) :
    (ofSource source settings).Refusing := by
  intro _ filter c hc
  cases filter <;> cases hc

/-- Only attaching a condition adds one. -/
theorem Refusing.of_conditions {s t : Statement} (h : s.Refusing)
    (hsettings : t.settings = s.settings) (hconditions : t.conditions = s.conditions) :
    t.Refusing := by
  intro hpolicy
  rw [hconditions]
  exact h (hsettings ▸ hpolicy)

theorem Refusing.apply {s : Statement} (h : s.Refusing) {resolve : Resolver} {c : Call}
    {made : Change} (hc : c.change resolve s.settings = .ok made) : (made.apply s).Refusing := by
  have hsettings := settings_apply s made
  cases c with
  | attach filter connective condition =>
    obtain ⟨p, -, haccept, rfl⟩ := Call.exists_of_change_attach hc
    intro hpolicy other c hmem
    rw [hsettings] at hpolicy
    rw [conditions_apply, List.mem_append] at hmem
    rcases hmem with hmem | hmem
    · exact h hpolicy other c hmem
    · split at hmem
      · rw [List.mem_singleton.1 hmem]
        exact Settings.not_hasEmptyIn_of_accept hpolicy haccept
      · cases hmem
  | orderBy expr ascending =>
    obtain ⟨item, -, rfl⟩ := Result.map_eq_ok.1 hc
    exact h.of_conditions hsettings (funext fun filter => by cases filter <;> rfl)
  | columns | distinct | source | join | parameter | groupBy | limit | union =>
    cases hc
    exact h.of_conditions hsettings (funext fun filter => by cases filter <;> rfl)

end Statement

namespace Store

private theorem kept_refusing : Kept (fun _ => True) Statement.Refusing where
  query _ := Statement.refusing_ofSource _ _
  subselect _ := Statement.refusing_blank _ _
  change _ _ h hc := h.apply hc
  copy h _ _ := h.of_conditions rfl (funext fun filter => by cases filter <;> rfl)

/-- What the settings of a statement refuse is in none of its conditions, after any actions. -/
theorem refusing_after (actions : List Action) {s : Statement}
    (hs : s ∈ (empty.after actions).statements) : s.Refusing :=
  (forall_after kept_refusing (fun _ _ => trivial) s hs).2

end Store

section

variable {σ α : Type} [ParameterSink σ α]

/-- A sink that refuses INs without values refuses a predicate exactly if one of its leaves is
such an IN. It then names the first of them, has taken the operands of the leaves before it, and
has logged nothing. A sink that renders them takes every predicate whole, with one warning for each
of them from left to right. And no condition of a statement that refuses them has one, after any
actions. -/
theorem emptyIn_policy (p : Predicate α) (sink : σ) (actions : List Action) :
    ((ParameterSink.settings sink).emptyIn = .reject →
      ((∃ failure, ((p.contribute : Run σ Unit).run sink).result = .error failure) ↔
        p.HasEmptyIn) ∧
      (p.HasEmptyIn → ∃ before expr after,
        p.leaves = before ++ .isIn expr [] :: after ∧ (∀ name, .isIn name [] ∉ before) ∧
        (p.contribute : Run σ Unit).run sink =
          ⟨(before.flatMap Predicate.operands).foldl ParameterSink.push sink, [],
            .error (.emptyIn expr)⟩ ∧
        (Failure.emptyIn expr).family = .argument ∧
        (Failure.emptyIn expr).argument? = some "values") ∧
      (¬ p.HasEmptyIn → (p.contribute : Run σ Unit).run sink =
        ⟨p.operands.foldl ParameterSink.push sink, [], .ok ()⟩)) ∧
    ((ParameterSink.settings sink).emptyIn = .render →
      (p.contribute : Run σ Unit).run sink =
        ⟨p.operands.foldl ParameterSink.push sink,
          (p.leaves.filterMap Predicate.emptyIn?).map .emptyIn, .ok ()⟩ ∧
      ∀ event ∈ ((p.contribute : Run σ Unit).run sink).events, event.level = .warning) ∧
    ∀ s ∈ (Store.empty.after actions).statements, s.settings.emptyIn = .reject →
      ∀ filter, ∀ c ∈ s.conditions filter, ¬ c.predicate.HasEmptyIn := by
  refine ⟨fun hpolicy => ⟨Predicate.exists_error_contribute_iff hpolicy, fun h => ?_, fun h =>
    Predicate.run_contribute_of_not_hasEmptyIn h sink⟩, fun hpolicy => ?_, fun s hs =>
    Store.refusing_after actions hs⟩
  · obtain ⟨before, expr, after, hleaves, hbefore⟩ := h.exists_first
    exact ⟨before, expr, after, hleaves, hbefore,
      Predicate.run_contribute_of_reject hpolicy hleaves hbefore, rfl, rfl⟩
  · have hrun := Predicate.run_contribute_of_render p sink hpolicy
    rw [Predicate.emptyIns_eq_leaves] at hrun
    refine ⟨hrun, ?_⟩
    rw [hrun]
    intro event hevent
    obtain ⟨expr, -, rfl⟩ := List.mem_map.1 hevent
    rfl

/-- Of `a = 1 AND NOT b IN () AND c IN ()` a refusing sink takes the operand of `a`, and then
refuses what is left. -/
theorem nested_emptyIn_refused :
    let p : Predicate Value := .junction .and (.comparison .equal "a" (.int 1))
      [.not (.isIn "b" []), .isIn "c" []]
    let sink : Collector Value := ⟨[], .reject, false⟩
    p.HasEmptyIn ∧
      (∃ failure, ((p.contribute : Run (Collector Value) Unit).run sink).result = .error failure) ∧
      (p.contribute : Run (Collector Value) Unit).run sink =
        ⟨⟨[.int 1], .reject, false⟩, [], .error (.emptyIn "b")⟩ := by
  intro p sink
  have h : p.HasEmptyIn := ⟨"b", by simp [p, Predicate.leaves, Predicate.leavesOfAll]⟩
  exact ⟨h, ((emptyIn_policy p sink []).1 rfl).1.2 h, rfl⟩

end

end BoundQuery
