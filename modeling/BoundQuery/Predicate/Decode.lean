import BoundQuery.Value.Decode
import BoundQuery.Value.Equality

/-!
# Predicates from data

A predicate is described by a mapping with a tag and the fields of the shape that the tag names.
A field that holds a condition is described in the same way; conditions that are predicates
already are taken as they are. The parts are read in order, all of them, and every issue has the
path to its place: into a shape by its tag, into a field by its name, into an item by its index.

Predicates are read one inside another up to a fixed number. Of one that is deeper the tag is still
looked up, and then it is an issue, whatever its fields. A predicate that is taken as it is counts
as one, whatever is inside it.

## Main definitions

* `Predicate.tagOf`: the shape that a mapping names.
* `Predicate.ofValueWithin`: the predicate that a value is or describes, with so many levels left.
* `Predicate.ofValue`, `Predicate.ofValue?`: the same from the top.
* `Predicate.ofEntries`: the predicate with given fields of a given shape.
-/

namespace BoundQuery.Predicate

/-- The shape that a mapping names. A set is never a tag, but is no fault of its own. -/
def tagOf (entries : List (Value × Value)) : Decoded Kind :=
  match Value.field? "kind" entries with
  | none => .fault .noShape
  | some (.set _) => .fault .noShape
  | some v =>
    match v.unhashable?, v.text?.bind Kind.ofTag? with
    | some kind, _ => .unhashable kind
    | none, some kind => .valid kind
    | none, none => .fault .noShape

/-- The tag of a shape, where fields include one. -/
def decodeTag (kind : Kind) (v : Value) : Decoded Unit :=
  match v with
  | .text s => if s == kind.tag then .valid () else .fault (.notLiteral [kind.tag])
  | _ => .fault (.notLiteral [kind.tag])

def decodeComparison (v : Value) : Decoded Comparison :=
  v.decodeText.andThen fun s =>
    match Comparison.ofSymbol? s with
    | some op => .valid op
    | none => .fault (.unknownComparison s)

def connectiveOfText (s : String) : Decoded Connective :=
  match Connective.ofName? s with
  | some c => .valid c
  | none => .fault (.notChoice (Connective.all.map Connective.name))

/-- A connective, or its word. -/
def decodeConnective (v : Value) : Decoded Connective :=
  match v.decodeText with
  | .valid s => connectiveOfText s
  | _ => .fault (.notChoice (Connective.all.map Connective.name))

/-- The operands of a list. -/
def decodeOperands (v : Value) : Decoded (List Value) :=
  match v.operandList? with
  | some items => .valid items
  | none => .fault .notSequence

/-- A predicate whose bounds are there. -/
def withBounds (p : Predicate Value) : Decoded (Predicate Value) :=
  match p with
  | .between _ start stop =>
    if start.isNull then .fault (.nullBound "start")
    else if stop.isNull then .fault (.nullBound "end")
    else .valid p
  | p => .valid p

/-- The items of a list that were read one by one, the first at `index`. -/
def itemsFrom {α : Type} (index : Nat) : List (Decoded α) → Decoded (List α)
  | [] => .valid []
  | item :: rest =>
    List.cons <$> item.under (.item index) <*> itemsFrom (index + 1) rest

def isValid {α : Type} : Decoded α → Bool
  | .valid _ => true
  | _ => false

/-- The items of a list that needs a valid one at least, the first apart. -/
def atLeastOne {α : Type} (items : List (Decoded α)) : Decoded (α × List α) :=
  let short : Issue := ⟨[], .tooShort 1 0⟩
  match itemsFrom 0 items with
  | .valid (first :: rest) => .valid (first, rest)
  | .valid [] => .invalid [short]
  | .invalid issues =>
    if items.any isValid then .invalid issues else .invalid (issues ++ [short])
  | .unhashable kind => .unhashable kind

/-- A field that was looked up and read before. -/
def requiredField {α : Type} (name : String) (found : Option (Decoded α)) : Decoded α :=
  (found.getD (.fault .missing)).under (.field name)

/-- The fields of a given shape, where those that hold conditions were read before. -/
def readFields (kind : Kind) (entries : List (Value × Value))
    (child : Option (Decoded (Predicate Value)))
    (children : Option (Decoded (Predicate Value × List (Predicate Value)))) :
    Decoded (Predicate Value) :=
  match kind with
  | .comparison =>
    comparison <$> Field.required "op" decodeComparison entries <*>
      Field.required "expr" Value.decodeText entries <*>
      Field.required "value" .valid entries
  | .between =>
    between <$> Field.required "expr" Value.decodeText entries <*>
      Field.required "start" .valid entries <*>
      Field.required "end" .valid entries
  | .isIn =>
    isIn <$> Field.required "expr" Value.decodeText entries <*>
      Field.optional "values" [] decodeOperands entries
  | .nullCheck =>
    nullCheck <$> Field.required "expr" Value.decodeText entries <*>
      Field.optional "negated" false Value.decodeTruth entries
  | .not => not <$> requiredField "child" child
  | .junction =>
    (fun joiner parts => junction joiner parts.1 parts.2) <$>
      Field.required "joiner" decodeConnective entries <*>
      requiredField "children" children

/-- The predicate with given fields of a given shape, where the fields that hold conditions were
read before. -/
def ofFields (kind : Kind) (entries : List (Value × Value))
    (child : Option (Decoded (Predicate Value)))
    (children : Option (Decoded (Predicate Value × List (Predicate Value)))) :
    Decoded (Predicate Value) :=
  ((fun _ p _ => p) <$> Field.optional "kind" () (decodeTag kind) entries <*>
    readFields kind entries child children <*>
    Field.noneBeyond ("kind" :: kind.fields) entries).andThen withBounds

/-- The most predicates one inside another that are read, the outermost included. -/
def maxDepth : Nat := 255

/-- Read a predicate with one level less, if there is one left. -/
def descend {α : Type} (levels : Nat) (read : Nat → Decoded α) : Decoded α :=
  match levels with
  | 0 => .fault .tooDeep
  | levels + 1 => read levels

mutual

/-- The predicate that a value is or describes, with so many predicates one inside another. -/
def ofValueWithin (levels : Nat) : Value → Decoded (Predicate Value)
  | .predicate p => (descend levels fun _ => .valid p).under (.field p.kind.tag)
  | .mapping entries =>
    (tagOf entries).andThen fun kind =>
      (descend levels fun inside =>
        ofFields kind entries (childAmong inside entries) (childrenAmong inside entries)).under
          (.field kind.tag)
  | _ => .fault .noShape

def childAmong (levels : Nat) : List (Value × Value) → Option (Decoded (Predicate Value))
  | [] => none
  | (key, value) :: rest =>
    if key.isText "child" then some (ofValueWithin levels value) else childAmong levels rest

def childrenAmong (levels : Nat) :
    List (Value × Value) → Option (Decoded (Predicate Value × List (Predicate Value)))
  | [] => none
  | (key, value) :: rest =>
    if key.isText "children" then some (childrenOf levels value) else childrenAmong levels rest

/-- The children that a value holds. The items of a range and the fields of a predicate describe
no predicates. -/
def childrenOf (levels : Nat) : Value → Decoded (Predicate Value × List (Predicate Value))
  | .list items | .tuple items | .set items | .stream items => atLeastOne (ofValues levels items)
  | .range start stop step =>
    atLeastOne ((Value.rangeItems start stop step).map fun _ => .fault .noShape)
  | .predicate p => atLeastOne (p.fieldValues.map fun _ => .fault .noShape)
  | _ => .fault .notSequence

def ofValues (levels : Nat) : List Value → List (Decoded (Predicate Value))
  | [] => []
  | v :: rest => ofValueWithin levels v :: ofValues levels rest

end

/-- The predicate with given fields of a given shape. -/
def ofEntries (kind : Kind) (entries : List (Value × Value)) : Decoded (Predicate Value) :=
  descend maxDepth fun inside =>
    ofFields kind entries (childAmong inside entries) (childrenAmong inside entries)

/-- The predicate that a value is or describes. -/
def ofValue (v : Value) : Decoded (Predicate Value) := ofValueWithin maxDepth v

/-- The predicate that a value is or describes, or the failure that refuses it. -/
def ofValue? (v : Value) : Except Failure (Predicate Value) :=
  (ofValue v).toExcept .malformedPredicate

@[simp] theorem ofValue_predicate (p : Predicate Value) : ofValue (.predicate p) = .valid p := by
  simp [ofValue, ofValueWithin, maxDepth, descend]

@[simp] theorem ofValue?_predicate (p : Predicate Value) : ofValue? (.predicate p) = .ok p := by
  simp [ofValue?, Decoded.toExcept]

theorem ofValues_eq_map (levels : Nat) (vs : List Value) :
    ofValues levels vs = vs.map (ofValueWithin levels) := by
  induction vs with
  | nil => rfl
  | cons v rest ih => simp [ofValues, ih]

end BoundQuery.Predicate
