import BoundQuery.Value.Display

/-!
# Reading fields

A record is read from the entries of a mapping. Text is read from text, from what counts as text
and from bytes that are UTF-8; a truth value also from the numbers zero and one and from a few
words in either case. Every entry beyond the known fields is an issue.

## Main definitions

* `Value.decodeText`, `Value.decodeTruth`: text and truth values from loosely typed values.
* `Field.required`, `Field.optional`: a field of a record.
* `Field.noneBeyond`: the absence of other fields.
-/

namespace BoundQuery

namespace Value

/-- A text from a value. -/
def decodeText (v : Value) : Decoded String :=
  match v with
  | bytes bs =>
    match Utf8.decode bs with
    | .ok s => .valid s
    | .error _ => .fault .notUtf8
  | v =>
    match v.text? with
    | some s => .valid s
    | none => .fault .notText

def falseWords : List String := ["0", "off", "f", "false", "n", "no"]

def trueWords : List String := ["1", "on", "t", "true", "y", "yes"]

/-- A truth value from a word, whatever the case of its ASCII letters. -/
def truthOfText (s : String) : Decoded Bool :=
  let word := s.map Char.toLower
  if falseWords.contains word then .valid false
  else if trueWords.contains word then .valid true
  else .fault .unreadTruth

/-- The first whole number above those of 64 bits. -/
def wordEnd : Int := 9223372036854775808

/-- A truth value from a whole number of at most 64 bits. -/
def truthOfInt (i : Int) : Decoded Bool :=
  if i == 0 then .valid false
  else if i == 1 then .valid true
  else if -wordEnd ≤ i && i < wordEnd then .fault .unreadTruth
  else .fault .notTruth

/-- A truth value from a floating point number that is whole and has less than 64 bits. -/
def truthOfFloat (x : Float) : Decoded Bool :=
  match (FloatParts.ofFloat? x).bind FloatParts.toInt? with
  | some i => if -wordEnd < i && i < wordEnd then truthOfInt i else .fault .notTruth
  | none => .fault .notTruth

/-- A truth value from a value. -/
def decodeTruth (v : Value) : Decoded Bool :=
  match v with
  | bool b => .valid b
  | int i => truthOfInt i
  | float x => truthOfFloat x
  | bytes bs =>
    match Utf8.decode bs with
    | .ok s => truthOfText s
    | .error _ => .fault .unreadTruth
  | v =>
    match v.text? with
    | some s => truthOfText s
    | none => .fault .notTruth

@[simp] theorem decodeText_text (s : String) : (text s).decodeText = .valid s := rfl

@[simp] theorem decodeTruth_bool (b : Bool) : (bool b).decodeTruth = .valid b := rfl

end Value

/-- The step of a path that a key stands for: a whole number of 64 bits is an index, and a key of
another type goes by its literal form. -/
def Issue.Step.ofKey (key : Value) : Issue.Step :=
  match key.text?, key with
  | some s, _ => .field s
  | none, .bool b => .item (if b then 1 else 0)
  | none, key =>
    let shown := ((key.literal Resolver.empty).toOption).getD key.kindName
    match key with
    | .int i => if -Value.wordEnd ≤ i && i < Value.wordEnd then .item i else .field shown
    | _ => .field shown

namespace Field

variable {α : Type}

/-- A field that has to be there. -/
def required (name : String) (decode : Value → Decoded α) (entries : List (Value × Value)) :
    Decoded α :=
  match Value.field? name entries with
  | some v => (decode v).under (.field name)
  | none => (Decoded.fault .missing).under (.field name)

/-- A field that may be left out. -/
def optional (name : String) (absent : α) (decode : Value → Decoded α)
    (entries : List (Value × Value)) : Decoded α :=
  match Value.field? name entries with
  | some v => (decode v).under (.field name)
  | none => .valid absent

/-- The issue of an entry beyond the known fields. -/
def beyond? (known : List String) (key : Value) : Option Issue :=
  match key.text? with
  | some s => if known.contains s then none else some ⟨[.field s], .extra⟩
  | none => some ⟨[.ofKey key], .keyNotText⟩

/-- The absence of entries beyond the known fields. -/
def noneBeyond (known : List String) (entries : List (Value × Value)) : Decoded Unit :=
  match entries.filterMap fun e => beyond? known e.1 with
  | [] => .valid ()
  | issues => .invalid issues

@[simp] theorem noneBeyond_nil (known : List String) : noneBeyond known [] = .valid () := rfl

end Field

end BoundQuery
