import BoundQuery.Text.Hex
import BoundQuery.Text.Printable

/-!
# Quoted text

Text and bytes in the form that messages show them in. Single quotes stand around the content,
double quotes only where it has a single quote and no double one. Inside, the mark in use and the
backslash follow a backslash, tab, line feed and carriage return have letters of their own, and
whatever else cannot be printed is written in hexadecimal: two digits, four or eight, as few as
hold the code.

## Main definitions

* `Quoted.mark`: the quotation mark that a content calls for.
* `quoteText`, `quoteBytes`: the quoted forms.
-/

namespace BoundQuery

namespace Quoted

def single : Char := '\x27'

def double : Char := '"'

/-- The quotation mark that a content calls for. -/
def mark (content : List Char) : Char :=
  if content.contains single && !content.contains double then double else single

def hexEscape (code : Nat) : List Char :=
  if code < 0x100 then '\\' :: 'x' :: hexDigits 2 code
  else if code < 0x10000 then '\\' :: 'u' :: hexDigits 4 code
  else '\\' :: 'U' :: hexDigits 8 code

/-- A character between two marks, given which characters show as they are. -/
def escape (shown : Char → Bool) (mark c : Char) : List Char :=
  if c == mark || c == '\\' then ['\\', c]
  else if c == '\t' then ['\\', 't']
  else if c == '\n' then ['\\', 'n']
  else if c == '\r' then ['\\', 'r']
  else if shown c then [c]
  else hexEscape c.toNat

/-- A content between its marks. -/
def enclose (shown : Char → Bool) (content : List Char) : List Char :=
  mark content :: content.flatMap (escape shown (mark content)) ++ [mark content]

theorem mark_eq_single_or_double (content : List Char) :
    mark content = single ∨ mark content = double := by
  unfold mark
  split
  · exact .inr rfl
  · exact .inl rfl

end Quoted

def quoteText (s : String) : String := String.ofList (Quoted.enclose isPrintable s.toList)

/-- Bytes in quotes, after the letter b; a byte that is no printable ASCII is in hexadecimal. -/
def quoteBytes (bytes : List UInt8) : String :=
  "b" ++ String.ofList
    (Quoted.enclose (fun c => isPrintable c && c.toNat < 0x80)
      (bytes.map fun b => Char.ofNat b.toNat))

end BoundQuery
