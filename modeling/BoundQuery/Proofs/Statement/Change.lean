import BoundQuery.Proofs.Result
import BoundQuery.Proofs.Run
import BoundQuery.Proofs.Statement.Bound
import BoundQuery.Statement.Call

/-!
# What calls change

A call that succeeds makes one change to its statement, and a call that fails makes none. Whether
it succeeds, and which change it makes, depends on the settings of the statement and on the texts
of other statements, but not on the pieces that the statement has already.

## Main definitions

* `Settings.accept`: whether INs without values are let through.
* `Change`, `Change.apply`: the changes, and a statement after one.
* `Call.change`: the change that a call makes, or its failure.

## Main statements

* `Call.result_perform`, `Call.state_perform`: the result of a call on a balanced statement, and
  the statement that it leaves.
-/

namespace BoundQuery

/-- The first of some INs without values is refused, if the settings say so. -/
def Settings.accept (settings : Settings) (emptyIns : List String) : Except Failure Unit :=
  match settings.emptyIn, emptyIns with
  | .reject, expr :: _ => .error (.emptyIn expr)
  | _, _ => .ok ()

@[simp] theorem Settings.accept_nil (settings : Settings) : settings.accept [] = .ok () := by
  cases h : settings.emptyIn <;> simp [accept, h]

/-- Where INs without values are refused, the first of them is what is refused. -/
theorem Settings.accept_eq_error_iff {settings : Settings} {emptyIns : List String}
    {failure : Failure} :
    settings.accept emptyIns = .error failure ↔
      settings.emptyIn = .reject ∧ ∃ expr rest, emptyIns = expr :: rest ∧
        failure = .emptyIn expr := by
  unfold accept
  cases settings.emptyIn <;> cases emptyIns <;> simp [eq_comm]

theorem Settings.accept_append (settings : Settings) (xs ys : List String) :
    settings.accept (xs ++ ys) = settings.accept xs >>= fun _ => settings.accept ys := by
  cases xs with
  | nil =>
    rw [accept_nil]
    rfl
  | cons x rest => cases h : settings.emptyIn <;> simp only [accept, h, List.cons_append] <;> rfl

namespace Predicate

variable {σ α : Type} [ParameterSink σ α]

theorem settings_state_contribute (p : Predicate α) (sink : σ) :
    ParameterSink.settings ((contribute p : Run σ Unit).run sink).state =
      ParameterSink.settings sink := by
  obtain ⟨taken, -, hs, -⟩ := exists_taken_contribute p sink
  rw [hs, settings_foldl_push]

mutual

/-- A contribution fails at the first IN without values, where the settings of the sink refuse
it. -/
theorem result_contribute (p : Predicate α) (sink : σ) :
    ((contribute p : Run σ Unit).run sink).result =
      (ParameterSink.settings sink).accept p.emptyIns := by
  match p with
  | comparison _ _ _ => simp [contribute, emptyIns]
  | between _ _ _ => simp [contribute, emptyIns]
  | isIn expr [] =>
    cases h : (ParameterSink.settings sink).emptyIn <;>
      simp [contribute, contributeEmpty, emptyIns, Settings.accept, h]
  | isIn _ (_ :: _) => simp [contribute, emptyIns]
  | nullCheck _ _ => simp [contribute, emptyIns]
  | not child => simpa [contribute, emptyIns] using result_contribute child sink
  | junction _ first rest =>
    have hfirst := result_contribute first sink
    have hsettings := settings_state_contribute first sink
    simp only [emptyIns, Settings.accept_append, ← hfirst]
    rcases ho : (contribute first : Run σ Unit).run sink with ⟨state, events, failure | a⟩
    · simp only [contribute, Run.run_bind, ho, Run.follow_error]
      rfl
    · rw [ho] at hsettings
      simp only [contribute, Run.run_bind, ho, Run.follow_ok]
      rw [result_contributeAll rest state, hsettings]
      rfl

/-- The same for conditions one after the other. -/
theorem result_contributeAll (ps : List (Predicate α)) (sink : σ) :
    ((contributeAll ps : Run σ Unit).run sink).result =
      (ParameterSink.settings sink).accept (emptyInsOfAll ps) := by
  match ps with
  | [] => simp [contributeAll, emptyInsOfAll]
  | p :: rest =>
    have hp := result_contribute p sink
    have hsettings := settings_state_contribute p sink
    simp only [emptyInsOfAll, Settings.accept_append, ← hp]
    rcases ho : (contribute p : Run σ Unit).run sink with ⟨state, events, failure | a⟩
    · simp only [contributeAll, Run.run_bind, ho, Run.follow_error]
      rfl
    · rw [ho] at hsettings
      simp only [contributeAll, Run.run_bind, ho, Run.follow_ok]
      rw [result_contributeAll rest state, hsettings]
      rfl

end

end Predicate

/-- What a call that succeeds changes in a statement. -/
inductive Change where
  | columns (names : List Value) (grouped : Bool)
  | distinct
  | source (table : Value)
  | join (j : Join)
  | condition (filter : Filter) (c : Condition)
  | parameter (value : Value)
  | groupBy (expr : Value)
  | orderBy (item : Value)
  | limit (limit offset : Value)
  | union (branch : Value)

/-- A statement after a change. -/
def Change.apply (s : Statement) : Change → Statement
  | columns names grouped => s.addColumns names grouped
  | distinct => { s with distinct := true }
  | source table => { s with sources := s.sources ++ [table] }
  | join j => { s with joins := s.joins ++ [j] }
  | condition filter c =>
    (s.bindAll (.conditions filter) c.predicate.operands).addCondition filter c
  | parameter value => s.bindAll .text [value]
  | groupBy expr => { s with groupings := s.groupings ++ [expr] }
  | orderBy item => { s with orderings := s.orderings ++ [item] }
  | limit count passed => { s with limit := count, offset := passed }
  | union branch => { s with branches := s.branches ++ [branch] }

/-- What a statement is ordered by, given an expression and a direction. -/
def Statement.ordering (resolve : Resolver) (expr ascending : Value) : Except Failure Value :=
  if ascending.isNull then .ok expr
  else do
    let shown ← expr.display resolve
    return .text (shown ++ if ascending.isTrue then " ASC" else " DESC")

/-- The change that a call makes to a statement of given settings, or its failure. -/
def Call.change (resolve : Resolver) (settings : Settings) : Call → Except Failure Change
  | columns names grouped =>
    let (names, grouped) := Statement.splitColumns names grouped
    .ok (.columns names grouped)
  | distinct => .ok .distinct
  | source table => .ok (.source table)
  | join kind joined => .ok (.join ⟨kind, joined⟩)
  | attach filter connective condition => do
    let p ← Predicate.ofValue? condition
    settings.accept p.emptyIns
    return .condition filter ⟨connective, p⟩
  | parameter value => .ok (.parameter value)
  | groupBy expr => .ok (.groupBy expr)
  | orderBy expr ascending => .orderBy <$> Statement.ordering resolve expr ascending
  | limit count passed => .ok (.limit count passed)
  | union branch => .ok (.union branch)

theorem Call.change_attach_of_ok (resolve : Resolver) (settings : Settings) (filter : Filter)
    (connective : Connective) {condition : Value} {p : Predicate Value}
    (hp : Predicate.ofValue? condition = .ok p) :
    (attach filter connective condition).change resolve settings =
      (settings.accept p.emptyIns).map fun _ => .condition filter ⟨connective, p⟩ := by
  simp only [change, hp]
  change (settings.accept p.emptyIns >>= _) = _
  rcases settings.accept p.emptyIns with failure | a <;> rfl

theorem Call.change_attach_of_error (resolve : Resolver) (settings : Settings) (filter : Filter)
    (connective : Connective) {condition : Value} {failure : Failure}
    (hp : Predicate.ofValue? condition = .error failure) :
    (attach filter connective condition).change resolve settings = .error failure := by
  simp only [change, hp]
  rfl

/-- A condition that is attached was read from what was given, and none of its INs was refused. -/
theorem Call.exists_of_change_attach {resolve : Resolver} {settings : Settings} {filter : Filter}
    {connective : Connective} {condition : Value} {made : Change}
    (h : (attach filter connective condition).change resolve settings = .ok made) :
    ∃ p, Predicate.ofValue? condition = .ok p ∧ settings.accept p.emptyIns = .ok () ∧
      made = .condition filter ⟨connective, p⟩ := by
  obtain ⟨p, hp, h⟩ := Result.bind_eq_ok.1 h
  obtain ⟨a, ha, h⟩ := Result.bind_eq_ok.1 h
  exact ⟨p, hp, ha, (Except.ok.inj h).symm⟩

/-- A condition is not attached because it cannot be read, or because one of its INs is refused. -/
theorem Call.error_of_change_attach {resolve : Resolver} {settings : Settings} {filter : Filter}
    {connective : Connective} {condition : Value} {failure : Failure}
    (h : (attach filter connective condition).change resolve settings = .error failure) :
    Predicate.ofValue? condition = .error failure ∨ ∃ expr, failure = .emptyIn expr := by
  rcases hp : Predicate.ofValue? condition with refused | p
  · rw [change_attach_of_error _ _ _ _ hp] at h
    cases h
    exact .inl rfl
  · rw [change_attach_of_ok _ _ _ _ hp] at h
    rcases haccept : settings.accept p.emptyIns with refused | a
    · rw [haccept] at h
      cases h
      obtain ⟨-, expr, -, -, hexpr⟩ := Settings.accept_eq_error_iff.1 haccept
      exact .inr ⟨expr, hexpr⟩
    · rw [haccept] at h
      cases h

namespace Statement

@[simp] theorem addCondition_parts (s : Statement) (filter : Filter) (c : Condition) :
    (s.addCondition filter c).parts = s.parts := by
  cases filter <;> rfl

@[simp] theorem addCondition_bound (s : Statement) (filter : Filter) (c : Condition) :
    (s.addCondition filter c).bound = s.bound := by
  cases filter <;> rfl

@[simp] theorem addCondition_part (s : Statement) (filter : Filter) (c : Condition) :
    (s.addCondition filter c).part = s.part := by
  cases filter <;> rfl

@[simp] theorem addCondition_settings (s : Statement) (filter : Filter) (c : Condition) :
    (s.addCondition filter c).settings = s.settings := by
  cases filter <;> rfl

/-- A change keeps a statement balanced. -/
theorem Balanced.apply {s : Statement} (h : s.Balanced) (change : Change) :
    (change.apply s).Balanced := by
  cases change with
  | condition filter c =>
    have hb := h.bindAll (.conditions filter) c.predicate.operands
    exact ⟨by simpa [Change.apply] using hb.length_parts, by simpa [Change.apply] using hb.part_eq⟩
  | parameter value => exact h.bindAll .text [value]
  | columns | distinct | source | join | groupBy | orderBy | limit | union =>
    exact ⟨h.length_parts, h.part_eq⟩

@[simp] theorem settings_apply (s : Statement) (change : Change) :
    (change.apply s).settings = s.settings := by
  cases change <;> simp [Change.apply, addColumns, bindAll]

@[simp] theorem label_apply (s : Statement) (change : Change) :
    (change.apply s).label = s.label := by
  cases change with
  | condition filter c => cases filter <;> rfl
  | _ => rfl

/-- A condition stands after those of its section. -/
theorem conditions_apply (s : Statement) (filter other : Filter) (c : Condition) :
    (Change.apply s (.condition filter c)).conditions other =
      s.conditions other ++ if filter = other then [c] else [] := by
  cases filter <;> cases other <;> first | rfl | exact (List.append_nil _).symm

/-- The operands of a condition are bound after those of its section. -/
theorem boundIn_apply {s : Statement} (h : s.Balanced) (filter : Filter) (c : Condition)
    (part : Part) :
    (Change.apply s (.condition filter c)).boundIn part =
      s.boundIn part ++ if Part.conditions filter = part then c.predicate.operands else [] := by
  rw [← boundIn_bindAll h]
  cases filter <;> rfl

/-! ## Binding operands -/

theorem result_bindOperands (filter : Filter) (p : Predicate Value) (s : Statement) :
    ((bindOperands filter p).run s).result = s.settings.accept p.emptyIns := by
  have h := p.result_contribute (s.turnTo (.conditions filter))
  simp only [sinkSettings_eq, settings_turnTo] at h
  rw [← h]
  simp only [bindOperands]
  split <;> simp_all

/-- Operands are all bound, or taken back. -/
theorem state_bindOperands (filter : Filter) (p : Predicate Value) {s : Statement}
    (hs : s.Balanced) :
    ((bindOperands filter p).run s).state =
      match s.settings.accept p.emptyIns with
      | .ok () => s.bindAll (.conditions filter) p.operands
      | .error _ => s := by
  -- What was taken before a failure stands behind the earlier values in both lists.
  obtain ⟨taken, -, hstate, hall⟩ :=
    p.exists_taken_contribute (s.turnTo (.conditions filter))
  rw [foldl_push] at hstate
  rw [← result_bindOperands filter]
  have hpart : s.turnTo .text = s := by
    rw [turnTo, ← hs.part_eq]
  rcases ho : (p.contribute : Run Statement Unit).run (s.turnTo (.conditions filter)) with
    ⟨state, events, failure | a⟩
  · rw [ho] at hstate
    simp only at hstate
    have hparts : (s.parts ++ List.replicate taken.length (Part.conditions filter)).take
        s.bound.length = s.parts := by
      rw [← hs.length_parts, List.take_left]
    simp only [bindOperands, ho, hstate]
    simp only [keepBound, turnTo, List.take_left, hparts]
    exact hpart
  · rw [ho] at hstate hall
    simp only [forall_const] at hstate hall
    simp only [bindOperands, ho, hstate, hall]
    simp only [turnTo, bindAll]
    rw [← hs.part_eq]

@[simp] theorem result_logAttached (p : Predicate Value) (boundBefore : Nat) (s : Statement) :
    ((logAttached p boundBefore).run s).result = .ok () := by
  simp only [logAttached, Run.run_bind, Run.run_get, Run.follow_ok]
  split <;> rfl

@[simp] theorem state_logAttached (p : Predicate Value) (boundBefore : Nat) (s : Statement) :
    ((logAttached p boundBefore).run s).state = s := by
  simp only [logAttached, Run.run_bind, Run.run_get, Run.follow_ok]
  split <;> rfl

/-! ## Calls -/

theorem result_attach (resolve : Resolver) (filter : Filter) (connective : Connective)
    (condition : Value) (s : Statement) :
    ((attach filter connective condition).run s).result =
      ((Call.attach filter connective condition).change resolve s.settings).map fun _ => () := by
  rcases hp : Predicate.ofValue? condition with failure | p
  · rw [Call.change_attach_of_error _ _ _ _ hp]
    simp only [attach, hp, Run.run_bind, Run.run_ofExcept, Run.follow_error]
    rfl
  · have hb := result_bindOperands filter p s
    rw [Call.change_attach_of_ok _ _ _ _ hp, ← hb]
    rcases ho : (bindOperands filter p).run s with ⟨state, events, failure | a⟩
    · simp only [attach, hp, Run.run_bind, Run.run_ofExcept, Run.follow_ok, Run.run_get, ho,
        Run.follow_error]
      rfl
    · have hl := result_logAttached p s.bound.length state
      simp only [attach, hp, Run.run_bind, Run.run_ofExcept, Run.follow_ok, Run.run_get, ho]
      rw [Run.result_follow_of_ok hl]
      rfl

theorem state_attach (resolve : Resolver) (filter : Filter) (connective : Connective)
    (condition : Value) {s : Statement} (hs : s.Balanced) :
    ((attach filter connective condition).run s).state =
      match (Call.attach filter connective condition).change resolve s.settings with
      | .ok change => change.apply s
      | .error _ => s := by
  rcases hp : Predicate.ofValue? condition with failure | p
  · rw [Call.change_attach_of_error _ _ _ _ hp]
    simp only [attach, hp, Run.run_bind, Run.run_ofExcept, Run.follow_error]
  · have hr := result_bindOperands filter p s
    have hb := state_bindOperands filter p hs
    rw [Call.change_attach_of_ok _ _ _ _ hp]
    rw [← hr] at hb ⊢
    rcases ho : (bindOperands filter p).run s with ⟨state, events, failure | a⟩
    · have hstate : state = s := by simpa only [ho] using hb
      simp only [attach, hp, Run.run_bind, Run.run_ofExcept, Run.follow_ok, Run.run_get, ho,
        Run.follow_error]
      exact hstate
    · have hstate : state = s.bindAll (.conditions filter) p.operands := by
        simpa only [ho] using hb
      have hl := result_logAttached p s.bound.length state
      simp only [attach, hp, Run.run_bind, Run.run_ofExcept, Run.follow_ok, Run.run_get, ho]
      rw [Run.state_follow_of_ok hl, state_logAttached, Run.run_modify, hstate]
      rfl

end Statement

/-- Whether a call succeeds depends on the settings alone, and on the texts of statements. -/
theorem Call.result_perform (resolve : Resolver) (c : Call) (s : Statement) :
    ((c.perform resolve).run s).result =
      (c.change resolve s.settings).map fun _ => () := by
  cases c with
  | attach filter connective condition =>
    exact Statement.result_attach resolve filter connective condition s
  | orderBy expr ascending =>
    simp only [perform, change, Statement.orderBy, Statement.ordering]
    by_cases hn : ascending.isNull = true
    · simp only [hn, if_true]
      rfl
    · simp only [hn]
      rcases expr.display resolve with failure | shown <;> rfl
  | columns | distinct | source | join | parameter | groupBy | limit | union => rfl

/-- A call that succeeds makes its change to a balanced statement; one that fails makes none. -/
theorem Call.state_perform (resolve : Resolver) (c : Call) {s : Statement} (hs : s.Balanced) :
    ((c.perform resolve).run s).state =
      match c.change resolve s.settings with
      | .ok change => change.apply s
      | .error _ => s := by
  cases c with
  | attach filter connective condition =>
    exact Statement.state_attach resolve filter connective condition hs
  | orderBy expr ascending =>
    simp only [perform, change, Statement.orderBy, Statement.ordering]
    by_cases hn : ascending.isNull = true
    · simp only [hn, if_true]
      rfl
    · simp only [hn]
      rcases expr.display resolve with failure | shown <;> rfl
  | parameter value =>
    simp only [perform, change, Change.apply, Run.run_modify, Statement.bind, Statement.bindAll]
    rw [← hs.part_eq]
    rfl
  | columns | distinct | source | join | groupBy | limit | union => rfl

end BoundQuery
