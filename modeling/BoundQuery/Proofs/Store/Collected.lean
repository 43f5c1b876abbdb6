import BoundQuery.Proofs.Predicate.Leaves
import BoundQuery.Proofs.Store.Actions

/-!
# Statements and collectors

A statement and a collector are given a condition by the same traversal, so a collector with the
settings of a statement tells what attaching the condition will do: whether it goes through, what
is logged on the way, and which values are bound. The two part where an operand is refused. A
collector keeps what it took before that, and a statement takes all of it back.

## Main statements

* `Predicate.run_contribute_collector_of_error`: what a collector is left with.
* `Store.attach_as_collected`: attaching a condition, seen from a collector.
-/

namespace BoundQuery

theorem Settings.level_of_mem_warnings {settings : Settings} {emptyIns : List String} :
    ∀ event ∈ settings.warnings emptyIns, event.level = .warning := by
  intro event hevent
  unfold warnings at hevent
  split at hevent
  · obtain ⟨expr, -, rfl⟩ := List.mem_map.1 hevent
    rfl
  · cases hevent

namespace Predicate

variable {α : Type}

/-- A collector that takes a predicate has its operands. -/
theorem state_contribute_collector_of_ok {p : Predicate α} {settings : Settings}
    (h : settings.accept p.emptyIns = .ok ()) :
    ((p.contribute : Run (Collector α) Unit).run ⟨[], settings⟩).state =
      ⟨p.operands, settings⟩ := by
  have hok := p.result_contribute (⟨[], settings⟩ : Collector α)
  rw [state_contribute_of_ok (hok.trans h), Collector.foldl_push]
  rfl

/-- A collector that refuses a predicate has the operands of the leaves before the first IN without
values, which are the first of its operands. -/
theorem run_contribute_collector_of_error {p : Predicate α} {settings : Settings}
    {failure : Failure} (h : settings.accept p.emptyIns = .error failure) :
    ∃ before expr after, p.leaves = before ++ .isIn expr [] :: after ∧
      (∀ name, .isIn name [] ∉ before) ∧ before.flatMap operands <+: p.operands ∧
      (p.contribute : Run (Collector α) Unit).run ⟨[], settings⟩ =
        ⟨⟨before.flatMap operands, settings⟩, [], .error (.emptyIn expr)⟩ := by
  obtain ⟨hpolicy, expr, rest, hempty, -⟩ := Settings.accept_eq_error_iff.1 h
  have hempty : p.HasEmptyIn := by
    rw [← not_not (a := p.HasEmptyIn), ← emptyIns_eq_nil_iff, hempty]
    exact List.cons_ne_nil _ _
  obtain ⟨before, expr, after, hleaves, hbefore⟩ := hempty.exists_first
  refine ⟨before, expr, after, hleaves, hbefore, ?_, ?_⟩
  · rw [operands_eq_leaves, hleaves, List.flatMap_append]
    exact List.prefix_append _ _
  · rw [run_contribute_of_reject hpolicy hleaves hbefore, Collector.foldl_push]
    rfl

end Predicate

/-- An attached condition binds its values behind the others, all of them to its section, and stands
behind the conditions of the section. -/
theorem Statement.apply_condition (s : Statement) (filter : Filter) (c : Condition) :
    (Change.apply s (.condition filter c)).bound = s.bound ++ c.predicate.operands ∧
      (Change.apply s (.condition filter c)).parts =
        s.parts ++ List.replicate c.predicate.operands.length (Part.conditions filter) ∧
      ((Change.apply s (.condition filter c)).conditions filter).map Condition.fragment =
        (s.conditions filter).map Condition.fragment ++
          [⟨.text c.predicate.sql, .text (" " ++ c.connective.name ++ " ")⟩] := by
  cases filter <;> exact ⟨rfl, rfl, by simp [conditions_apply]; rfl⟩

namespace Store

/-- Attaching a condition to a statement goes through exactly if a collector with the settings of
the statement takes the condition; otherwise both end in the same failure. The warnings are those of
the collector, in the same order. If it goes through, the statement has bound the values of the
collector behind its own, all of them to the section, the condition stands behind those of the
section, nothing else has changed, and after the warnings the condition is logged together with the
number of its values if the settings say so. If it does not, the collector has the operands of the
leaves before the first IN without values, and the statement is as it was. -/
theorem attach_as_collected (actions : List Action) {s : Statement}
    (hs : s ∈ (empty.after actions).statements) {condition : Value} {p : Predicate Value}
    (hp : Predicate.ofValue? condition = .ok p) (filter : Filter) (connective : Connective) :
    let collected := (p.contribute : Run (Collector Value) Unit).run ⟨[], s.settings⟩
    let attached := (Statement.attach filter connective condition).run s
    let values := collected.state.values
    attached.result = collected.result ∧
      (∀ event ∈ collected.events, event.level = .warning) ∧
      (collected.result = .ok () →
        attached.state =
          (s.bindAll (.conditions filter) values).addCondition filter ⟨connective, p⟩ ∧
        attached.state.bound = s.bound ++ values ∧
        attached.state.parts =
          s.parts ++ List.replicate values.length (Part.conditions filter) ∧
        (attached.state.conditions filter).map Condition.fragment =
          (s.conditions filter).map Condition.fragment ++
            [⟨.text p.sql, .text (" " ++ connective.name ++ " ")⟩] ∧
        attached.events = collected.events ++
          (if s.settings.logAttached then [.attached p.sql values.length] else []) ∧
        (Event.attached p.sql values.length).level = .debug) ∧
      ∀ failure, collected.result = .error failure →
        attached.state = s ∧ attached.events = collected.events ∧
        ∃ before expr after, p.leaves = before ++ .isIn expr [] :: after ∧
          (∀ name, .isIn name [] ∉ before) ∧ failure = .emptyIn expr ∧
          values = before.flatMap Predicate.operands ∧ values <+: p.operands := by
  intro collected attached values
  have hbalanced := balanced_after actions hs
  have hchange := Call.change_attach_of_ok Resolver.empty s.settings filter connective hp
  have hcollected : collected.result = s.settings.accept p.emptyIns := p.result_contribute _
  have hevents : collected.events = s.settings.warnings p.emptyIns := p.events_contribute _
  have hresult : attached.result = _ :=
    Statement.result_attach Resolver.empty filter connective condition s
  have hstate : attached.state = _ :=
    Statement.state_attach Resolver.empty filter connective condition hbalanced
  have hlogged : attached.events = _ :=
    Statement.events_attach filter connective condition hbalanced
  rw [hchange] at hresult hstate
  simp only [Call.events, hp, Settings.attachEvents, ← hevents] at hlogged
  rw [← hcollected] at hresult hstate hlogged
  refine ⟨?_, ?_, ?_, ?_⟩
  · rw [hresult]
    rcases collected.result with failure | a <;> rfl
  · rw [hevents]
    exact Settings.level_of_mem_warnings
  · intro hok
    have hvalues : values = p.operands := congrArg Collector.values
      (Predicate.state_contribute_collector_of_ok (hcollected.symm.trans hok))
    simp only [hok] at hstate hlogged
    rw [hvalues]
    have hadded : attached.state = Change.apply s (.condition filter ⟨connective, p⟩) := hstate
    obtain ⟨hbound, hparts, hsection⟩ := s.apply_condition filter ⟨connective, p⟩
    rw [← hadded] at hbound hparts hsection
    exact ⟨hadded, hbound, hparts, hsection, hlogged, rfl⟩
  · intro failure hfailure
    simp only [hfailure] at hstate hlogged
    obtain ⟨before, expr, after, hleaves, hbefore, hprefix, hrun⟩ :=
      Predicate.run_contribute_collector_of_error (hcollected.symm.trans hfailure)
    have hcollect : collected = _ := hrun
    have hvalues : values = before.flatMap Predicate.operands :=
      congrArg (fun o => o.state.values) hcollect
    rw [hcollect] at hfailure
    exact ⟨hstate, by simpa using hlogged, before, expr, after, hleaves, hbefore,
      (Except.error.inj hfailure).symm, hvalues, hvalues ▸ hprefix⟩

/-- A query that logs its conditions and refuses INs without values has a bound value and a
condition on groups. -/
def loggedGroups : List Action :=
  [.query (.text "t") ⟨.reject, true⟩, .call ⟨.query, 0⟩ (.parameter (.int 0)),
    .call ⟨.query, 0⟩ (.attach .groups .and (.predicate (.comparison .greater "n" (.int 3))))]

/-- It takes `(a = 1 OR b in (2, 5))` for its rows, as a collector does, and of
`(a = 1 OR not (b in ()))` it keeps nothing where a collector keeps the operand of `a`. -/
theorem attach_as_collected_loggedGroups :
    let whole : Predicate Value := .junction .or (.comparison .equal "a" (.int 1))
      [.isIn "b" [.int 2, .int 5]]
    let refused : Predicate Value := .junction .or (.comparison .equal "a" (.int 1))
      [.not (.isIn "b" [])]
    let attach (s : Statement) (p : Predicate Value) :=
      (Statement.attach .rows .or (.predicate p)).run s
    let collect (s : Statement) (p : Predicate Value) :=
      (p.contribute : Run (Collector Value) Unit).run ⟨[], s.settings⟩
    ∃ s ∈ (empty.after loggedGroups).statements, s.bound = [.int 0, .int 3] ∧
      (collect s whole).result = .ok () ∧
      (attach s whole).state.bound = [.int 0, .int 3, .int 1, .int 2, .int 5] ∧
      (attach s whole).events = [.attached whole.sql 3] ∧
      (collect s refused).result = .error (.emptyIn "b") ∧
      (collect s refused).state.values = [.int 1] ∧ (attach s refused).state = s := by
  intro whole refused attach collect
  let s : Statement :=
    (((empty.after loggedGroups).get? ⟨.query, 0⟩).getD (.blank .null .default))
  have hs : s ∈ (empty.after loggedGroups).statements :=
    List.mem_of_getElem? (show (empty.after loggedGroups).get? ⟨.query, 0⟩ = some s from rfl)
  have hwhole : Predicate.ofValue? (.predicate whole) = .ok whole := rfl
  have hrefused : Predicate.ofValue? (.predicate refused) = .ok refused := rfl
  obtain ⟨-, -, htaken, -⟩ := attach_as_collected loggedGroups hs hwhole .rows .or
  obtain ⟨-, -, -, hundone⟩ := attach_as_collected loggedGroups hs hrefused .rows .or
  obtain ⟨-, hbound, -, -, hevents, -⟩ := htaken rfl
  exact ⟨s, hs, rfl, rfl, hbound, hevents, rfl, rfl, (hundone _ rfl).1⟩

end Store

end BoundQuery
