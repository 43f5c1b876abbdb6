import BoundQuery.Proofs.Statement.Change

/-!
# What calls log

Attaching a condition is the only call that logs. It logs a warning for every IN without values,
where these are let through, and then the condition itself, if the settings say so and none was
refused. What is logged depends on the settings and the condition only.

## Main definitions

* `Settings.warnings`: the warnings of a contribution.
* `Call.events`: what a call logs on a statement of given settings.

## Main statements

* `Predicate.events_contribute`: what a contribution logs.
* `Call.events_perform`: what a call logs.
-/

namespace BoundQuery

/-- The warnings for INs without values, where these are let through. -/
def Settings.warnings (settings : Settings) (emptyIns : List String) : List Event :=
  match settings.emptyIn with
  | .render => emptyIns.map .emptyIn
  | .reject => []

namespace Predicate

variable {σ α : Type} [ParameterSink σ α]

mutual

/-- Where an IN without values is refused, nothing is logged. -/
theorem events_contribute_of_reject (p : Predicate α) (sink : σ)
    (h : (ParameterSink.settings sink).emptyIn = .reject) :
    ((contribute p : Run σ Unit).run sink).events = [] := by
  match p with
  | comparison _ _ _ => rfl
  | between _ _ _ => rfl
  | isIn _ [] => simp [contribute, contributeEmpty, h]
  | isIn _ (_ :: _) => simp [contribute]
  | nullCheck _ _ => rfl
  | not child => simpa [contribute] using events_contribute_of_reject child sink h
  | junction _ first rest =>
    have hfirst := events_contribute_of_reject first sink h
    have hsettings := settings_state_contribute first sink
    rcases ho : (contribute first : Run σ Unit).run sink with ⟨state, events, failure | a⟩
    · rw [ho] at hfirst
      simpa only [contribute, Run.run_bind, ho, Run.follow_error] using hfirst
    · rw [ho] at hfirst hsettings
      have hrest := events_contributeAll_of_reject rest state (by rw [hsettings]; exact h)
      simp only [contribute, Run.run_bind, ho, Run.follow_ok]
      exact List.append_eq_nil_iff.2 ⟨hfirst, hrest⟩

/-- The same for conditions one after the other. -/
theorem events_contributeAll_of_reject (ps : List (Predicate α)) (sink : σ)
    (h : (ParameterSink.settings sink).emptyIn = .reject) :
    ((contributeAll ps : Run σ Unit).run sink).events = [] := by
  match ps with
  | [] => rfl
  | p :: rest =>
    have hp := events_contribute_of_reject p sink h
    have hsettings := settings_state_contribute p sink
    rcases ho : (contribute p : Run σ Unit).run sink with ⟨state, events, failure | a⟩
    · rw [ho] at hp
      simpa only [contributeAll, Run.run_bind, ho, Run.follow_error] using hp
    · rw [ho] at hp hsettings
      have hrest := events_contributeAll_of_reject rest state (by rw [hsettings]; exact h)
      simp only [contributeAll, Run.run_bind, ho, Run.follow_ok]
      exact List.append_eq_nil_iff.2 ⟨hp, hrest⟩

end

/-- A contribution logs its warnings and nothing else. -/
theorem events_contribute (p : Predicate α) (sink : σ) :
    ((contribute p : Run σ Unit).run sink).events =
      (ParameterSink.settings sink).warnings p.emptyIns := by
  unfold Settings.warnings
  cases h : (ParameterSink.settings sink).emptyIn with
  | render => rw [run_contribute_of_render p sink h]
  | reject => exact events_contribute_of_reject p sink h

end Predicate

/-- What attaching a condition logs. -/
def Settings.attachEvents (settings : Settings) (p : Predicate Value) : List Event :=
  settings.warnings p.emptyIns ++
    match settings.accept p.emptyIns with
    | .ok () => if settings.logAttached then [.attached p.sql p.operands.length] else []
    | .error _ => []

/-- What a call logs on a statement of given settings. -/
def Call.events (settings : Settings) : Call → List Event
  | attach _ _ condition =>
    match Predicate.ofValue? condition with
    | .ok p => settings.attachEvents p
    | .error _ => []
  | _ => []

namespace Statement

theorem events_bindOperands (filter : Filter) (p : Predicate Value) (s : Statement) :
    ((bindOperands filter p).run s).events = s.settings.warnings p.emptyIns := by
  have h := p.events_contribute (s.turnTo (.conditions filter))
  simp only [sinkSettings_eq, settings_turnTo] at h
  rw [← h]
  simp only [bindOperands]
  split <;> rfl

theorem events_logAttached (p : Predicate Value) (boundBefore : Nat) (s : Statement) :
    ((logAttached p boundBefore).run s).events =
      if s.settings.logAttached then [.attached p.sql (s.bound.length - boundBefore)] else [] := by
  simp only [logAttached, Run.run_bind, Run.run_get, Run.follow_ok]
  split <;> rfl

theorem events_attach (filter : Filter) (connective : Connective) (condition : Value)
    {s : Statement} (hs : s.Balanced) :
    ((attach filter connective condition).run s).events =
      (Call.attach filter connective condition).events s.settings := by
  rcases hp : Predicate.ofValue? condition with failure | p
  · simp only [attach, Call.events, hp, Run.run_bind, Run.run_ofExcept, Run.follow_error]
  · have he := events_bindOperands filter p s
    have hr := result_bindOperands filter p s
    have hb := state_bindOperands filter p hs
    rw [← hr] at hb
    simp only [Call.events, hp, Settings.attachEvents, ← hr, ← he]
    rcases ho : (bindOperands filter p).run s with ⟨state, events, failure | a⟩
    · simp only [attach, hp, Run.run_bind, Run.run_ofExcept, Run.follow_ok, Run.run_get, ho,
        Run.follow_error]
      simp
    · have hstate : state = s.bindAll (.conditions filter) p.operands := by
        simpa only [ho] using hb
      have hl := events_logAttached p s.bound.length state
      have hcount : state.bound.length - s.bound.length = p.operands.length := by
        simp [hstate, bindAll]
      have hsettings : state.settings = s.settings := by rw [hstate, bindAll]
      rw [hcount, hsettings] at hl
      have hlog := result_logAttached p s.bound.length state
      simp only [attach, hp, Run.run_bind, Run.run_ofExcept, Run.follow_ok, Run.run_get, ho]
      rw [Run.events_follow_of_ok hlog, hl]
      simp

end Statement

/-- What a call logs on a balanced statement does not depend on its pieces. -/
theorem Call.events_perform (resolve : Resolver) (c : Call) {s : Statement} (hs : s.Balanced) :
    ((c.perform resolve).run s).events = c.events s.settings := by
  cases c with
  | attach filter connective condition =>
    exact Statement.events_attach filter connective condition hs
  | orderBy expr ascending =>
    simp only [perform, events, Statement.orderBy]
    by_cases hn : ascending.isNull = true
    · simp only [hn, if_true]
      rfl
    · simp only [hn]
      rcases expr.display resolve with failure | shown <;> rfl
  | columns | distinct | source | join | parameter | groupBy | limit | union => rfl

end BoundQuery
