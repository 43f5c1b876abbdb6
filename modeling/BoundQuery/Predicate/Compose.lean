import BoundQuery.Predicate.Decode

/-!
# Composing predicates

Predicates put together from loosely typed parts. Each composition checks what only it knows, in a
fixed order, and leaves the reading of fields to the shape: a BETWEEN looks at its bounds before
its expression, an IN at its values, and a group at its conditions one after the other.

## Main definitions

* `Compose.compare`, `Compose.between`, `Compose.isIn`, `Compose.isNull`: leaf predicates.
* `Compose.negate`, `Compose.join`: predicates from conditions.
-/

namespace BoundQuery.Compose

def exprOf (expr : Value) : Except Failure String :=
  (expr.decodeText.under (.field "expr")).toExcept .malformedFields

def compare (op : Comparison) (expr value : Value) : Except Failure (Predicate Value) :=
  return .comparison op (← exprOf expr) value

def between (expr start stop : Value) : Except Failure (Predicate Value) :=
  if start.isNull then .error (.absentBound "start")
  else if stop.isNull then .error (.absentBound "end")
  else return .between (← exprOf expr) start stop

def isIn (expr values : Value) : Except Failure (Predicate Value) :=
  match values.operandList? with
  | none => .error (.notOperandList values.kindName)
  | some items => return .isIn (← exprOf expr) items

def isNull (negated : Bool) (expr : Value) : Except Failure (Predicate Value) :=
  return .nullCheck (← exprOf expr) negated

/-- The opposite of a condition. -/
def negate (child : Value) : Except Failure (Predicate Value) :=
  return .not (← Predicate.ofValue? child)

/-- The conditions that the arguments of a group give: a single list gives its items. -/
def spread (arguments : List Value) : List Value :=
  match arguments with
  | [only] => only.conditionList?.getD [only]
  | _ => arguments

/-- The predicates that some conditions are; the first that is none fails. -/
def conditions : List Value → Except Failure (List (Predicate Value))
  | [] => .ok []
  | v :: rest => do
    let p ← Predicate.ofValue? v
    return p :: (← conditions rest)

/-- Conditions joined by a connective. -/
def join (joiner : Connective) (arguments : List Value) : Except Failure (Predicate Value) :=
  match spread arguments with
  | [] => .error (.emptyGroup joiner)
  | first :: rest => do
    let first ← Predicate.ofValue? first
    return .junction joiner first (← conditions rest)

@[simp] theorem exprOf_text (s : String) : exprOf (.text s) = .ok s := rfl

@[simp] theorem compare_text (op : Comparison) (s : String) (value : Value) :
    compare op (.text s) value = .ok (.comparison op s value) := rfl

@[simp] theorem isIn_list (s : String) (items : List Value) :
    isIn (.text s) (.list items) = .ok (.isIn s items) := rfl

@[simp] theorem isNull_text (negated : Bool) (s : String) :
    isNull negated (.text s) = .ok (.nullCheck s negated) := rfl

@[simp] theorem negate_predicate (p : Predicate Value) :
    negate (.predicate p) = .ok (.not p) := by
  simp only [negate, Predicate.ofValue?_predicate]
  rfl

@[simp] theorem spread_list (items : List Value) : spread [.list items] = items := rfl

@[simp] theorem spread_predicate (p : Predicate Value) :
    spread [.predicate p] = [.predicate p] := rfl

/-- Joining no conditions fails. -/
@[simp] theorem join_nil (joiner : Connective) : join joiner [] = .error (.emptyGroup joiner) := rfl

end BoundQuery.Compose
