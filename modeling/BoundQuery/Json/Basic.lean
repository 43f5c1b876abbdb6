import BoundQuery.Decimal.Style
import BoundQuery.Text.Hex

/-!
# JSON documents

Documents keep the members of an object in order, and tell whole numbers from numbers with a
fraction. They are written without blanks; text is quoted with as few escapes as the format
allows, so characters outside ASCII stand for themselves.

## Main definitions

* `Json`: a document.
* `Json.levels`: how many documents stand one inside another.
* `Json.style`: how numbers with a fraction are written.
* `Json.write`: the text of a document.
-/

namespace BoundQuery

/-- A JSON document. -/
inductive Json where
  | null
  | bool (b : Bool)
  | int (i : Int)
  | float (x : Float)
  | text (s : String)
  | array (items : List Json)
  | object (members : List (String × Json))
deriving Inhabited

namespace Json

mutual

/-- How many documents stand one inside another, those without parts included. -/
def levels : Json → Nat
  | array items => levelsOfAll items + 1
  | object members => levelsOfMembers members + 1
  | _ => 1

def levelsOfAll : List Json → Nat
  | [] => 0
  | document :: rest => max (levels document) (levelsOfAll rest)

def levelsOfMembers : List (String × Json) → Nat
  | [] => 0
  | (_, document) :: rest => max (levels document) (levelsOfMembers rest)

end

theorem one_le_levels (document : Json) : 1 ≤ document.levels := by
  cases document <;> simp [levels]

/-- Digits stand in their places from `10 ^ -5` to below `10 ^ 16`, exponents have a sign and two
digits at least, and a number that is not finite is null. -/
def style : FloatStyle := ⟨-5, 15, 2, fun _ _ => "null"⟩

/-- A character inside a quoted text. -/
def escape (c : Char) : List Char :=
  if c == '"' || c == '\\' then ['\\', c]
  else if c == '\n' then ['\\', 'n']
  else if c == '\r' then ['\\', 'r']
  else if c == '\t' then ['\\', 't']
  else if c == '\x08' then ['\\', 'b']
  else if c == '\x0c' then ['\\', 'f']
  else if c.toNat < 0x20 then '\\' :: 'u' :: hexDigits 4 c.toNat
  else [c]

def writeText (s : String) : String :=
  String.ofList ('"' :: s.toList.flatMap escape ++ ['"'])

mutual

def write : Json → String
  | null => "null"
  | bool b => if b then "true" else "false"
  | int i => toString i
  | float x => style.write x
  | text s => writeText s
  | array items => "[" ++ ",".intercalate (writeItems items) ++ "]"
  | object members => "\x7b" ++ ",".intercalate (writeMembers members) ++ "\x7d"

def writeItems : List Json → List String
  | [] => []
  | item :: rest => write item :: writeItems rest

def writeMembers : List (String × Json) → List String
  | [] => []
  | (name, value) :: rest => (writeText name ++ ":" ++ write value) :: writeMembers rest

end

theorem writeItems_eq_map (items : List Json) : writeItems items = items.map write := by
  induction items with
  | nil => rfl
  | cons item rest ih => simp [writeItems, ih]

theorem writeMembers_eq_map (members : List (String × Json)) :
    writeMembers members = members.map fun m => writeText m.1 ++ ":" ++ write m.2 := by
  induction members with
  | nil => rfl
  | cons member rest ih => simp [writeMembers, ih]

end Json

end BoundQuery
