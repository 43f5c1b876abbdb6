import BoundQuery.Clause
import BoundQuery.Predicate.Contribute

/-!
# Statements

A statement is put together piece by piece, each piece in its own list, and its text has a fixed
order whatever the order of the pieces. Columns, sources and the like may be any values; whether
they make up text shows when the statement is written.

Bound values stand in one list in the order in which they came. A second list says of each which
part of the text it belongs to: the part that the statement was turned to when the value came. A
subselect has a label; the label of a query is null.

## Main definitions

* `Filter`, `Part`: the sections that hold conditions, and the parts that hold placeholders.
* `Condition`, `Join`: the pieces of a statement.
* `Statement`: the statements, which take operands for the part that they are turned to.
* `Statement.boundInOrder`: the bound values in the order of their parts.
-/

namespace BoundQuery

/-- The sections that hold conditions. -/
inductive Filter where
  | rows
  | groups
deriving DecidableEq, Repr

def Filter.lead : Filter → String
  | rows => " WHERE "
  | groups => " HAVING "

/-- The parts of a text that bound values belong to. -/
inductive Part where
  | text
  | conditions (filter : Filter)
deriving DecidableEq, Repr

def Part.rank : Part → Nat
  | text => 0
  | conditions .rows => 1
  | conditions .groups => 2

inductive JoinKind where
  | inner
  | left
  | right
  | fullOuter
deriving DecidableEq, Repr

namespace JoinKind

def all : List JoinKind := [inner, left, right, fullOuter]

def separator : JoinKind → String
  | inner => " JOIN "
  | left => " LEFT JOIN "
  | right => " RIGHT JOIN "
  | fullOuter => " FULL OUTER JOIN "

end JoinKind

structure Join where
  kind : JoinKind
  source : Value

def Join.fragment (j : Join) : Fragment := ⟨j.source, .text j.kind.separator⟩

/-- A condition with the connective that joins it to the one before. -/
structure Condition where
  connective : Connective
  predicate : Predicate Value

def Condition.fragment (c : Condition) : Fragment :=
  ⟨.text c.predicate.sql, .text c.connective.separator⟩

/-- A statement. It has all columns where it names none, and a limit or an offset that is not above
zero counts for nothing. -/
structure Statement where
  label : Value
  settings : Settings
  distinct : Bool
  columns : List Value
  sources : List Value
  joins : List Join
  rowConditions : List Condition
  groupings : List Value
  groupConditions : List Condition
  orderings : List Value
  limit : Value
  offset : Value
  branches : List Value
  bound : List Value
  parts : List Part
  part : Part

namespace Statement

def blank (label : Value) (settings : Settings) : Statement :=
  ⟨label, settings, false, [], [], [], [], [], [], [], .int 0, .int 0, [], [], [], .text⟩

/-- A query of a source, or of none where the source is null. -/
def ofSource (source : Value) (settings : Settings) : Statement :=
  { blank .null settings with sources := if source.isNull then [] else [source] }

def conditions (s : Statement) : Filter → List Condition
  | .rows => s.rowConditions
  | .groups => s.groupConditions

def addCondition (s : Statement) (filter : Filter) (c : Condition) : Statement :=
  match filter with
  | .rows => { s with rowConditions := s.rowConditions ++ [c] }
  | .groups => { s with groupConditions := s.groupConditions ++ [c] }

/-- Turn to a part of the text. -/
def turnTo (s : Statement) (part : Part) : Statement := { s with part }

/-- Bind a value to the part that the statement is turned to. -/
def bind (s : Statement) (value : Value) : Statement :=
  { s with bound := s.bound ++ [value], parts := s.parts ++ [s.part] }

/-- Keep the bound values that came first. -/
def keepBound (s : Statement) (count : Nat) : Statement :=
  { s with bound := s.bound.take count, parts := s.parts.take count }

/-- The bound values in the order of the parts that they belong to, and as they came within each
part. -/
def boundInOrder (s : Statement) : List Value :=
  ((s.parts.zip s.bound).mergeSort fun a b => a.1.rank ≤ b.1.rank).map Prod.snd

instance : ParameterSink Statement Value where
  settings s := s.settings
  push s value := s.bind value

@[simp] theorem push_eq (s : Statement) (value : Value) :
    ParameterSink.push s value = s.bind value := rfl

@[simp] theorem sinkSettings_eq (s : Statement) : ParameterSink.settings s = s.settings := rfl

@[simp] theorem settings_turnTo (s : Statement) (part : Part) :
    (s.turnTo part).settings = s.settings := rfl

@[simp] theorem conditions_addCondition (s : Statement) (filter : Filter) (c : Condition) :
    (s.addCondition filter c).conditions filter = s.conditions filter ++ [c] := by
  cases filter <;> rfl

/-- Taking values binds them to the part that the statement is turned to. -/
theorem foldl_push (values : List Value) (s : Statement) :
    values.foldl ParameterSink.push s =
      { s with bound := s.bound ++ values
               parts := s.parts ++ List.replicate values.length s.part } := by
  induction values generalizing s with
  | nil => simp
  | cons value rest ih =>
    rw [List.foldl_cons, ih]
    simp [bind, List.replicate_succ]

end Statement

end BoundQuery
