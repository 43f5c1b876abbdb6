import BoundQuery.Run
import BoundQuery.Settings

/-!
# Contributing operands

A predicate hands its operands to a sink one at a time, in the order of their placeholders. The
sink says what becomes of an IN without values: it is passed over with a warning, or it ends the
contribution. What the sink took before that it keeps; whoever owns the sink may undo it.

## Main definitions

* `ParameterSink`: what takes operands.
* `Predicate.contribute`: the contribution of a predicate.
* `Predicate.emptyIns`: the INs without values.
* `Collector`: a sink that keeps what it is given.

## Main statements

* `Predicate.run_contribute_of_render`: where no IN is refused, a sink takes all operands, and
  there is a warning for every IN without values.
* `Predicate.exists_taken_contribute`: however far a contribution gets, the sink took the first of
  the operands and none out of turn.
-/

namespace BoundQuery

/-- What takes operands one at a time. -/
class ParameterSink (σ : Type) (α : outParam Type) where
  settings : σ → Settings
  push : σ → α → σ
  settings_push : ∀ sink value, settings (push sink value) = settings sink := by
    intro sink value
    rfl

attribute [simp] ParameterSink.settings_push

/-- Hand one operand to a sink. -/
def ParameterSink.take {σ α : Type} [ParameterSink σ α] (value : α) : Run σ Unit :=
  .modify fun sink => push sink value

namespace Predicate

variable {σ α : Type} [ParameterSink σ α]

/-- The contribution of an IN without values. -/
def contributeEmpty (expr : String) : Run σ Unit := do
  match (ParameterSink.settings (← Run.get)).emptyIn with
  | .reject => Run.fail (.emptyIn expr)
  | .render => Run.emit (.emptyIn expr)

def contributeValues : List α → Run σ Unit
  | [] => pure ()
  | value :: rest => do
    ParameterSink.take value
    contributeValues rest

mutual

/-- Hand the operands of a predicate to a sink. -/
def contribute : Predicate α → Run σ Unit
  | comparison _ _ value => ParameterSink.take value
  | between _ start stop => do
    ParameterSink.take start
    ParameterSink.take stop
  | isIn expr [] => contributeEmpty expr
  | isIn _ values => contributeValues values
  | nullCheck _ _ => pure ()
  | not child => contribute child
  | junction _ first rest => do
    contribute first
    contributeAll rest

def contributeAll : List (Predicate α) → Run σ Unit
  | [] => pure ()
  | p :: rest => do
    contribute p
    contributeAll rest

end

/-! ## Contributions that go through -/

mutual

/-- The expressions of the INs without values, from first to last. -/
def emptyIns : Predicate α → List String
  | isIn expr [] => [expr]
  | not child => emptyIns child
  | junction _ first rest => emptyIns first ++ emptyInsOfAll rest
  | _ => []

def emptyInsOfAll : List (Predicate α) → List String
  | [] => []
  | p :: rest => emptyIns p ++ emptyInsOfAll rest

end

@[simp] theorem settings_foldl_push (values : List α) (sink : σ) :
    ParameterSink.settings (values.foldl ParameterSink.push sink) =
      ParameterSink.settings sink := by
  induction values generalizing sink with
  | nil => rfl
  | cons value rest ih => simp [ih]

/-- Where taking an operand puts it behind what a sink holds, the operands that it takes stand
behind what it held before. -/
theorem contents_foldl_push {contents : σ → List α}
    (h : ∀ sink value, contents (ParameterSink.push sink value) = contents sink ++ [value])
    (values : List α) (sink : σ) :
    contents (values.foldl ParameterSink.push sink) = contents sink ++ values := by
  induction values generalizing sink with
  | nil => simp
  | cons value rest ih => simp [ih, h]

@[simp] theorem run_take (value : α) (sink : σ) :
    (ParameterSink.take value : Run σ Unit).run sink =
      ⟨ParameterSink.push sink value, [], .ok ()⟩ := rfl

@[simp] theorem run_contributeValues (values : List α) (sink : σ) :
    (contributeValues values : Run σ Unit).run sink =
      ⟨values.foldl ParameterSink.push sink, [], .ok ()⟩ := by
  induction values generalizing sink with
  | nil => rfl
  | cons value rest ih => simp [contributeValues, ih]

mutual

/-- Where an IN without values is rendered, a sink takes all operands in order, and there is one
warning for every such IN. -/
theorem run_contribute_of_render (p : Predicate α) (sink : σ)
    (h : (ParameterSink.settings sink).emptyIn = .render) :
    (contribute p : Run σ Unit).run sink =
      ⟨p.operands.foldl ParameterSink.push sink, p.emptyIns.map .emptyIn, .ok ()⟩ := by
  match p with
  | comparison _ _ _ => rfl
  | between _ _ _ => rfl
  | isIn _ [] => simp [contribute, contributeEmpty, h, operands, emptyIns]
  | isIn _ (_ :: _) => simp [contribute, operands, emptyIns]
  | nullCheck _ _ => rfl
  | not child => simpa [contribute, operands, emptyIns] using run_contribute_of_render child sink h
  | junction _ first rest =>
    simp [contribute, operands, emptyIns, run_contribute_of_render first sink h,
      run_contributeAll_of_render rest (first.operands.foldl ParameterSink.push sink) (by simpa)]

/-- The same for conditions one after the other. -/
theorem run_contributeAll_of_render (ps : List (Predicate α)) (sink : σ)
    (h : (ParameterSink.settings sink).emptyIn = .render) :
    (contributeAll ps : Run σ Unit).run sink =
      ⟨(operandsOfAll ps).foldl ParameterSink.push sink, (emptyInsOfAll ps).map .emptyIn,
        .ok ()⟩ := by
  match ps with
  | [] => rfl
  | p :: rest =>
    simp [contributeAll, operandsOfAll, emptyInsOfAll, run_contribute_of_render p sink h,
      run_contributeAll_of_render rest (p.operands.foldl ParameterSink.push sink) (by simpa)]

end

/-! ## Contributions that may end early -/

mutual

/-- A sink takes operands from first to last and none out of turn, however far it gets. -/
theorem exists_taken_contribute (p : Predicate α) (sink : σ) :
    ∃ taken, taken <+: p.operands ∧
      ((contribute p : Run σ Unit).run sink).state = taken.foldl ParameterSink.push sink ∧
      (((contribute p : Run σ Unit).run sink).result = .ok () → taken = p.operands) := by
  match p with
  | comparison _ _ value => exact ⟨[value], List.prefix_refl _, rfl, fun _ => rfl⟩
  | between _ start stop => exact ⟨[start, stop], List.prefix_refl _, rfl, fun _ => rfl⟩
  | isIn expr [] =>
    refine ⟨[], List.prefix_refl _, ?_, fun _ => rfl⟩
    cases h : (ParameterSink.settings sink).emptyIn <;> simp [contribute, contributeEmpty, h]
  | isIn _ (value :: rest) =>
    exact ⟨value :: rest, List.prefix_refl _, by simp [contribute], fun _ => rfl⟩
  | nullCheck _ _ => exact ⟨[], List.prefix_refl _, rfl, fun _ => rfl⟩
  | not child =>
    obtain ⟨taken, hp, hs, hr⟩ := exists_taken_contribute child sink
    exact ⟨taken, by simpa using hp, by simpa [contribute] using hs,
      by simpa [contribute] using hr⟩
  | junction _ first rest =>
    obtain ⟨taken, hp, hs, hr⟩ := exists_taken_contribute first sink
    rcases h : (contribute first : Run σ Unit).run sink with ⟨state, events, failure | a⟩
    · refine ⟨taken, ?_, ?_, ?_⟩
      · exact hp.trans (by simp)
      · simpa [contribute, h] using hs
      · simp [contribute, h]
    · simp only [h, forall_const] at hs hr
      subst hs hr
      obtain ⟨more, hp', hs', hr'⟩ := exists_taken_contributeAll rest
        (first.operands.foldl ParameterSink.push sink)
      refine ⟨first.operands ++ more, ?_, ?_, ?_⟩
      · simpa [operands] using hp'
      · simp [contribute, h, hs']
      · intro ok
        simp only [contribute, Run.run_bind, h, Run.follow_ok] at ok
        simp [operands, hr' ok]

/-- The same for conditions one after the other. -/
theorem exists_taken_contributeAll (ps : List (Predicate α)) (sink : σ) :
    ∃ taken, taken <+: operandsOfAll ps ∧
      ((contributeAll ps : Run σ Unit).run sink).state = taken.foldl ParameterSink.push sink ∧
      (((contributeAll ps : Run σ Unit).run sink).result = .ok () →
        taken = operandsOfAll ps) := by
  match ps with
  | [] => exact ⟨[], List.prefix_refl _, rfl, fun _ => rfl⟩
  | p :: rest =>
    obtain ⟨taken, hp, hs, hr⟩ := exists_taken_contribute p sink
    rcases h : (contribute p : Run σ Unit).run sink with ⟨state, events, failure | a⟩
    · refine ⟨taken, ?_, ?_, ?_⟩
      · exact hp.trans (by simp [operandsOfAll])
      · simpa [contributeAll, h] using hs
      · simp [contributeAll, h]
    · simp only [h, forall_const] at hs hr
      subst hs hr
      obtain ⟨more, hp', hs', hr'⟩ := exists_taken_contributeAll rest
        (p.operands.foldl ParameterSink.push sink)
      refine ⟨p.operands ++ more, ?_, ?_, ?_⟩
      · simpa [operandsOfAll] using hp'
      · simp [contributeAll, h, hs']
      · intro ok
        simp only [contributeAll, Run.run_bind, h, Run.follow_ok] at ok
        simp [operandsOfAll, hr' ok]

end

/-- A contribution that goes through leaves all operands with the sink. -/
theorem state_contribute_of_ok {p : Predicate α} {sink : σ}
    (h : ((p.contribute : Run σ Unit).run sink).result = .ok ()) :
    ((p.contribute : Run σ Unit).run sink).state = p.operands.foldl ParameterSink.push sink := by
  obtain ⟨taken, -, hstate, htaken⟩ := exists_taken_contribute p sink
  rw [hstate, htaken h]

end Predicate

/-- A sink that keeps what it is given. -/
structure Collector (α : Type) where
  values : List α
  settings : Settings

namespace Collector

variable {α : Type}

instance : ParameterSink (Collector α) α where
  settings := settings
  push c value := { c with values := c.values ++ [value] }

@[simp] theorem values_push (c : Collector α) (value : α) :
    (ParameterSink.push c value).values = c.values ++ [value] := rfl

@[simp] theorem settings_push (c : Collector α) (value : α) :
    (ParameterSink.push c value).settings = c.settings := rfl

@[simp] theorem sinkSettings_eq (c : Collector α) : ParameterSink.settings c = c.settings := rfl

/-- A collector keeps the operands that it takes, behind those that it has. -/
theorem foldl_push (values : List α) (c : Collector α) :
    values.foldl ParameterSink.push c = { c with values := c.values ++ values } := by
  induction values generalizing c with
  | nil => simp
  | cons value rest ih =>
    rw [List.foldl_cons, ih]
    simp [ParameterSink.push]

end Collector

end BoundQuery
