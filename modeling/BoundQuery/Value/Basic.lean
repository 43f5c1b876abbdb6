import BoundQuery.Predicate.Basic

/-!
# Loosely typed values

Values arrive from callers and from decoded documents with no promise about their type, and any
of them may be bound to a placeholder. A value may hold a predicate, whose operands are values in
turn, or the identity of a statement; a statement is shared through its identity and never copied
into a value.

Operations and connectives count as text wherever text is asked for. A stream can be gone through
once; nothing here goes through one twice, so its items stand for it.

## Main definitions

* `Variant`, `Ref`: the two shapes of a statement, and the identity of one.
* `Value`: the values.
* `Value.kindName`: the name of a value's type in messages.
* `Value.text?`: the text that a value counts as.
-/

namespace BoundQuery

/-- The two shapes of a statement. A subselect stands in parentheses under a name, and can be a
column. -/
inductive Variant where
  | query
  | subselect
deriving DecidableEq, Repr

def Variant.display : Variant → String
  | query => "SelectBuilder"
  | subselect => "SubSelectBuilder"

/-- The identity of a statement: its shape, which never changes, and its place in a store. -/
structure Ref where
  variant : Variant
  index : Nat
deriving DecidableEq, Repr

/-- A value of any type. A range goes from `start` by `step` and stops short of `stop`, a mapping is
in order of insertion, and a fragment is a piece of a clause with what separates it from the one
before. -/
inductive Value where
  | null
  | bool (b : Bool)
  | int (i : Int)
  | float (x : Float)
  | text (s : String)
  | bytes (bs : List UInt8)
  | list (items : List Value)
  | tuple (items : List Value)
  | set (items : List Value)
  | range (start stop step : Int)
  | stream (items : List Value)
  | mapping (entries : List (Value × Value))
  | operation (op : Operation)
  | connective (c : Connective)
  | fragment (expression separator : Value)
  | predicate (p : Predicate Value)
  | statement (r : Ref)
deriving Inhabited

namespace Value

def kindName : Value → String
  | null => "NoneType"
  | bool _ => "bool"
  | int _ => "int"
  | float _ => "float"
  | text _ => "str"
  | bytes _ => "bytes"
  | list _ => "list"
  | tuple _ => "tuple"
  | set _ => "set"
  | range .. => "range"
  | stream _ => "generator"
  | mapping _ => "dict"
  | operation _ => "LogicalOp"
  | connective _ => "Junction"
  | fragment .. => "ClauseFragment"
  | predicate p => p.kind.display
  | statement r => r.variant.display

def isNull : Value → Bool
  | null => true
  | _ => false

/-- The text that a value counts as. -/
def text? : Value → Option String
  | text s => some s
  | operation op => some op.name
  | connective c => some c.name
  | _ => none

/-- Whether a value counts as a given text. -/
def isText (v : Value) (s : String) : Bool := v.text? == some s

def field? (name : String) : List (Value × Value) → Option Value
  | [] => none
  | (key, value) :: rest => if key.isText name then some value else field? name rest

@[simp] theorem isNull_iff (v : Value) : v.isNull = true ↔ v = null := by
  cases v <;> simp [isNull]

@[simp] theorem isText_text (s t : String) : (text s).isText t = (s == t) := by
  simp only [isText, text?]
  by_cases h : s = t <;> simp [h]

@[simp] theorem field?_nil (name : String) : field? name [] = none := rfl

@[simp] theorem field?_cons (name : String) (key value : Value) (rest : List (Value × Value)) :
    field? name ((key, value) :: rest) =
      if key.isText name then some value else field? name rest := rfl

end Value

end BoundQuery
