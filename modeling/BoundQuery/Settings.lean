import BoundQuery.Value.Collection
import BoundQuery.Value.Decode

/-!
# Settings

Settings say what becomes of an IN without values, and whether attaching a condition is logged.
They are read from named values, or from anything that makes up a mapping: a mapping, or pairs.

## Main definitions

* `EmptyIn`: what becomes of an IN without values.
* `Settings`: the settings, with their defaults.
* `Settings.ofEntries`, `Settings.ofValue`: settings from fields and from loosely typed data.
-/

namespace BoundQuery

/-- What becomes of an IN without values: it is rendered, with a warning, or refused. -/
inductive EmptyIn where
  | render
  | reject
deriving DecidableEq, Repr

namespace EmptyIn

def all : List EmptyIn := [render, reject]

def name : EmptyIn → String
  | render => "render"
  | reject => "reject"

def decode (v : Value) : Decoded EmptyIn :=
  match v with
  | .text s =>
    match all.find? (·.name == s) with
    | some policy => .valid policy
    | none => .fault (.notLiteral (all.map name))
  | _ => .fault (.notLiteral (all.map name))

@[simp] theorem decode_name (policy : EmptyIn) : decode (.text policy.name) = .valid policy := by
  cases policy <;> rfl

end EmptyIn

/-- How statements treat the conditions attached to them. -/
structure Settings where
  emptyIn : EmptyIn
  logAttached : Bool
deriving DecidableEq, Repr

namespace Settings

/-- An IN without values is rendered, and nothing is logged. -/
def default : Settings := ⟨.render, false⟩

instance : Inhabited Settings := ⟨default⟩

def fields : List String := ["empty_in", "log_predicates"]

/-- Settings from named values; what is not named keeps its default. -/
def ofEntries (entries : List (Value × Value)) : Decoded Settings :=
  (fun emptyIn logAttached _ => Settings.mk emptyIn logAttached) <$>
    Field.optional "empty_in" .render EmptyIn.decode entries <*>
    Field.optional "log_predicates" false Value.decodeTruth entries <*>
    Field.noneBeyond fields entries

/-- The pair that an item of a sequence makes up. -/
def pairOf (index : Nat) (item : Value) : Except Failure (Value × Value) :=
  match item.items? with
  | none => .error (.pairKind index)
  | some [key, value] => .ok (key, value)
  | some items => .error (.pairLength index items.length)

/-- The mapping that the items of a sequence make up, of which `index` were read before. -/
def readPairs (index : Nat) (entries : List (Value × Value)) :
    List Value → Except Failure (List (Value × Value))
  | [] => .ok entries
  | item :: rest => do
    let (key, value) ← pairOf index item
    readPairs (index + 1) (← Value.put key value entries) rest

/-- The mapping that a value makes up. -/
def entriesOf (v : Value) : Except Failure (List (Value × Value)) :=
  match v with
  | .mapping entries => .ok entries
  | v =>
    match v.items? with
    | some items => readPairs 0 [] items
    | none => .error (.notIterable v.kindName)

def ofValue (v : Value) : Except Failure Settings := do
  let entries ← entriesOf v
  (ofEntries entries).toExcept .malformedSettings

@[simp] theorem ofEntries_nil : ofEntries [] = .valid default := rfl

end Settings

end BoundQuery
