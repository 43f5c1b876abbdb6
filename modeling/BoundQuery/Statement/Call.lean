import BoundQuery.Predicate.Decode
import BoundQuery.Statement.Basic

/-!
# Calls

What can be done to a statement. Most calls append a piece to a list; a limit takes the place of an
earlier one. Attaching a condition first binds its operands and then adds the condition; if an
operand is refused, the operands bound before it are taken back, so the statement is as it was.

## Main definitions

* `Call`: the calls.
* `Statement.attach`: attaching a condition.
* `Call.perform`: the effect of a call.
-/

namespace BoundQuery

/-- What can be done to a statement. Among columns, a truth value in last place says whether they are
grouped by; otherwise `grouped` does. A value that is bound between calls belongs to columns and
sources. An order is as given where `ascending` is null, and otherwise what its truth says. -/
inductive Call where
  | columns (names : List Value) (grouped : Value)
  | distinct
  | source (table : Value)
  | join (kind : JoinKind) (source : Value)
  | attach (filter : Filter) (connective : Connective) (condition : Value)
  | parameter (value : Value)
  | groupBy (expr : Value)
  | orderBy (expr ascending : Value)
  | limit (limit offset : Value)
  | union (branch : Value)

namespace Statement

/-- The columns among names, and whether they are grouped by. -/
def splitColumns (names : List Value) (grouped : Value) : List Value × Bool :=
  match names.getLast? with
  | some (.bool b) => (names.dropLast, b)
  | _ => (names, grouped.isTrue)

/-- Add columns; those that count as text are also grouped by. -/
def addColumns (s : Statement) (names : List Value) (grouped : Bool) : Statement :=
  { s with
    columns := s.columns ++ names
    groupings := s.groupings ++ if grouped then names.filter (·.text?.isSome) else [] }

/-- Bind the operands of a predicate to a section; a failure takes back those that came before
it. Either way the statement turns back to its text. -/
def bindOperands (filter : Filter) (p : Predicate Value) : Run Statement Unit :=
  ⟨fun s =>
    let o := (p.contribute : Run Statement Unit).run (s.turnTo (.conditions filter))
    match o.result with
    | .ok () => ⟨o.state.turnTo .text, o.events, .ok ()⟩
    | .error failure =>
      ⟨(o.state.keepBound s.bound.length).turnTo .text, o.events, .error failure⟩⟩

/-- Log that a condition was attached, if the settings say so. -/
def logAttached (p : Predicate Value) (boundBefore : Nat) : Run Statement Unit := do
  let s ← Run.get
  if s.settings.logAttached then
    Run.emit (.attached p.sql (s.bound.length - boundBefore))

def attach (filter : Filter) (connective : Connective) (condition : Value) :
    Run Statement Unit := do
  let p ← Run.ofExcept (Predicate.ofValue? condition)
  let before ← Run.get
  bindOperands filter p
  logAttached p before.bound.length
  Run.modify (·.addCondition filter ⟨connective, p⟩)

def orderBy (resolve : Resolver) (expr ascending : Value) : Run Statement Unit := do
  let item ←
    if ascending.isNull then pure expr
    else do
      let shown ← Run.ofExcept (expr.display resolve)
      pure (.text (shown ++ if ascending.isTrue then " ASC" else " DESC"))
  Run.modify fun s => { s with orderings := s.orderings ++ [item] }

end Statement

/-- The effect of a call, given the texts of statements. -/
def Call.perform (resolve : Resolver) : Call → Run Statement Unit
  | columns names grouped =>
    let (names, grouped) := Statement.splitColumns names grouped
    Run.modify (·.addColumns names grouped)
  | distinct => Run.modify fun s => { s with distinct := true }
  | source table => Run.modify fun s => { s with sources := s.sources ++ [table] }
  | join kind joined => Run.modify fun s => { s with joins := s.joins ++ [⟨kind, joined⟩] }
  | attach filter connective condition => Statement.attach filter connective condition
  | parameter value => Run.modify (·.bind value)
  | groupBy expr => Run.modify fun s => { s with groupings := s.groupings ++ [expr] }
  | orderBy expr ascending => Statement.orderBy resolve expr ascending
  | limit count passed => Run.modify fun s => { s with limit := count, offset := passed }
  | union branch => Run.modify fun s => { s with branches := s.branches ++ [branch] }

end BoundQuery
