import BoundQuery.Json.Basic

/-!
# Reading JSON

A reader by recursive descent over the characters of a text. Every second call consumes a
character, so twice the length of the text bounds the calls.

## Main definitions

* `Json.joinUnits`: the characters that a sequence of UTF-16 units and code points names.
* `Json.read?`: the document that a text holds, and nothing else beside blanks.
-/

namespace BoundQuery.Json

/-- Drop the blanks that may stand between tokens. -/
def skipBlanks (cs : List Char) : List Char :=
  cs.dropWhile fun c => c == ' ' || c == '\n' || c == '\r' || c == '\t'

/-- Join the halves of surrogate pairs; a half that stands alone becomes the replacement
character. -/
def joinUnits : List Nat → List Char
  | [] => []
  | [unit] => [if 0xD800 ≤ unit && unit ≤ 0xDFFF then '\uFFFD' else Char.ofNat unit]
  | high :: low :: rest =>
    if 0xD800 ≤ high && high ≤ 0xDBFF && 0xDC00 ≤ low && low ≤ 0xDFFF then
      Char.ofNat (0x10000 + (high - 0xD800) * 0x400 + (low - 0xDC00)) :: joinUnits rest
    else if 0xD800 ≤ high && high ≤ 0xDFFF then '\uFFFD' :: joinUnits (low :: rest)
    else Char.ofNat high :: joinUnits (low :: rest)

/-- The code that the letter after a backslash stands for. -/
def unescape? (c : Char) : Option Nat :=
  match c with
  | '"' | '\\' | '/' => some c.toNat
  | 'n' => some 0x0A
  | 'r' => some 0x0D
  | 't' => some 0x09
  | 'b' => some 0x08
  | 'f' => some 0x0C
  | _ => none

/-- The codes of a quoted text after its opening mark, and what follows its closing mark. -/
def readUnits? : List Char → Option (List Nat × List Char)
  | [] => none
  | '"' :: rest => some ([], rest)
  | '\\' :: 'u' :: a :: b :: c :: d :: rest => do
    let unit := (← hexValue a) * 0x1000 + (← hexValue b) * 0x100 + (← hexValue c) * 0x10 +
      (← hexValue d)
    let (units, rest) ← readUnits? rest
    some (unit :: units, rest)
  | '\\' :: c :: rest => do
    let unit ← unescape? c
    let (units, rest) ← readUnits? rest
    some (unit :: units, rest)
  | c :: rest => do
    if c.toNat < 0x20 then none
    else
      let (units, rest) ← readUnits? rest
      some (c.toNat :: units, rest)

/-- A quoted text after its opening mark, and what follows it. -/
def readText? (cs : List Char) : Option (String × List Char) := do
  let (units, rest) ← readUnits? cs
  some (String.ofList (joinUnits units), rest)

/-- A number, and what follows it. -/
def readNumber? (cs : List Char) : Option (Json × List Char) := do
  match ← readDecimal? cs with
  | (.inl i, rest) => some (int i, rest)
  | (.inr x, rest) => some (float x, rest)

mutual

/-- A document at the head of a text, and what follows it. -/
def readValue? : Nat → List Char → Option (Json × List Char)
  | 0, _ => none
  | bound + 1, cs =>
    match skipBlanks cs with
    | 'n' :: 'u' :: 'l' :: 'l' :: rest => some (null, rest)
    | 't' :: 'r' :: 'u' :: 'e' :: rest => some (bool true, rest)
    | 'f' :: 'a' :: 'l' :: 's' :: 'e' :: rest => some (bool false, rest)
    | '"' :: rest => do
      let (s, rest) ← readText? rest
      some (text s, rest)
    | '[' :: rest =>
      match skipBlanks rest with
      | ']' :: rest => some (array [], rest)
      | rest => do
        let (items, rest) ← readItems? bound rest
        some (array items, rest)
    | '\x7b' :: rest =>
      match skipBlanks rest with
      | '\x7d' :: rest => some (object [], rest)
      | rest => do
        let (members, rest) ← readMembers? bound rest
        some (object members, rest)
    | cs => readNumber? cs

def readItems? : Nat → List Char → Option (List Json × List Char)
  | 0, _ => none
  | bound + 1, cs => do
    let (item, rest) ← readValue? bound cs
    match skipBlanks rest with
    | ',' :: rest => do
      let (items, rest) ← readItems? bound rest
      some (item :: items, rest)
    | ']' :: rest => some ([item], rest)
    | _ => none

def readMembers? : Nat → List Char → Option (List (String × Json) × List Char)
  | 0, _ => none
  | bound + 1, cs => do
    match skipBlanks cs with
    | '"' :: rest => do
      let (name, rest) ← readText? rest
      match skipBlanks rest with
      | ':' :: rest => do
        let (value, rest) ← readValue? bound rest
        match skipBlanks rest with
        | ',' :: rest => do
          let (members, rest) ← readMembers? bound rest
          some ((name, value) :: members, rest)
        | '\x7d' :: rest => some ([(name, value)], rest)
        | _ => none
      | _ => none
    | _ => none

end

/-- The document that a text holds. -/
def read? (s : String) : Option Json := do
  let cs := s.toList
  let (document, rest) ← readValue? (2 * cs.length + 2) cs
  if (skipBlanks rest).isEmpty then some document else none

end BoundQuery.Json
