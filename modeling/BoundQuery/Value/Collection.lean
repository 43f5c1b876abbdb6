import BoundQuery.Failure
import BoundQuery.Value.Equality

/-!
# Collections of values

A set and the keys of a mapping are found by their hashes, so whatever has none is refused. A key
that is equal to one already there keeps the place of that one and takes its value. A range goes
from one whole number towards another, by one where nothing else is said.

## Main definitions

* `Value.setOf`: a set of some items.
* `Value.insert`, `Value.put`: a value put under a key.
* `Value.at?`: the value under a key.
* `Value.rangeOf`: a range between bounds.
-/

namespace BoundQuery

namespace Value

/-- A set of some items. -/
def setOf (items : List Value) : Except Failure Value :=
  match unhashableAmong? items with
  | some kind => .error (.unhashable kind)
  | none => .ok (set items)

/-- Put a value under a key: an equal key keeps its place and takes the new value. -/
def insert (key value : Value) : List (Value × Value) → List (Value × Value)
  | [] => [(key, value)]
  | (k, v) :: rest => if same k key then (k, value) :: rest else (k, v) :: insert key value rest

def put (key value : Value) (entries : List (Value × Value)) :
    Except Failure (List (Value × Value)) :=
  match key.unhashable? with
  | some kind => .error (.unhashable kind)
  | none => .ok (insert key value entries)

def at? (key : Value) (entries : List (Value × Value)) : Option Value :=
  (entries.find? fun e => same e.1 key).map Prod.snd

/-- The whole number that a value is; a truth value is zero or one. -/
def whole (v : Value) : Except Failure Int :=
  match v.number? with
  | some (.inl i) => .ok i
  | _ => .error (.notWhole v.kindName)

/-- The range from one bound by a step, short of the other bound. -/
def rangeOf (start stop step : Value) : Except Failure Value := do
  let start ← start.whole
  let stop ← stop.whole
  let step ← step.whole
  if step = 0 then .error .zeroStep else return range start stop step

@[simp] theorem insert_nil (key value : Value) : insert key value [] = [(key, value)] := rfl

@[simp] theorem at?_nil (key : Value) : at? key [] = none := rfl

/-- No range stays where it is. -/
theorem rangeOf_zero (start stop : Int) :
    rangeOf (int start) (int stop) (int 0) = .error .zeroStep := rfl

end Value

end BoundQuery
