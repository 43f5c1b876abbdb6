import BoundQuery.Decimal.Shortest

/-!
# Writing and reading decimals

A number with a fraction part is written from its shortest digits. Between two exponents the
digits stand in their places, with a point and at least one digit after it; outside them one digit
stands before the point and an exponent follows. What differs between outputs is one record.

## Main definitions

* `FloatStyle`: the decisions of an output.
* `FloatStyle.write`: the written form of a number.
* `readDecimal?`, `readFloat?`: numbers from their written forms.
-/

namespace BoundQuery

/-- How an output writes floating point numbers. -/
structure FloatStyle where
  least : Int
  greatest : Int
  exponentWidth : Nat
  /-- What stands for a number that is not finite, by whether it is no number and its sign. -/
  special : Bool → Bool → String

namespace FloatStyle

/-- Digits in their places. -/
def positional (d : Decimal) : List Char :=
  let zeros (n : Int) : List Char := List.replicate n.toNat '0'
  if d.exponent < 0 then '0' :: '.' :: zeros (-d.exponent - 1) ++ d.digits
  else
    let whole := d.exponent.toNat + 1
    let fraction := if d.digits.length ≤ whole then ['0'] else d.digits.drop whole
    d.digits.take whole ++ zeros (whole - d.digits.length) ++ '.' :: fraction

/-- One digit before the point, and an exponent in at least `width` digits. -/
def scientific (width : Nat) (d : Decimal) : List Char :=
  let fraction := if d.digits.length ≤ 1 then [] else '.' :: d.digits.drop 1
  let exponent := Nat.toDigits 10 d.exponent.natAbs
  d.digits.take 1 ++ fraction ++ 'e' :: (if d.exponent < 0 then '-' else '+') ::
    List.replicate (width - exponent.length) '0' ++ exponent

def writeDecimal (style : FloatStyle) (d : Decimal) : List Char :=
  if style.least ≤ d.exponent && d.exponent ≤ style.greatest then positional d
  else scientific style.exponentWidth d

/-- The written form of a number. -/
def write (style : FloatStyle) (x : Float) : String :=
  match FloatParts.ofFloat? x with
  | some p =>
    String.ofList ((if p.negative then ['-'] else []) ++ style.writeDecimal p.shortest)
  | none => style.special x.isNaN (x < 0)

end FloatStyle

/-- The number that a run of digits stands for. -/
def readDigits (digits : List Char) : Nat :=
  digits.foldl (fun n c => n * 10 + (c.toNat - '0'.toNat)) 0

/-- The number with the given sign, digits before and after the point, and exponent. -/
def assembleFloat (negative : Bool) (whole fraction : List Char) (exponent : Int) : Float :=
  let scale := exponent - fraction.length
  let x := Float.ofScientific (readDigits (whole ++ fraction)) (scale < 0) scale.natAbs
  if negative then -x else x

/-- An exponent after its letter, or nothing. -/
def readExponent? (cs : List Char) : Option (Int × List Char) :=
  match cs with
  | c :: rest =>
    if c == 'e' || c == 'E' then
      let negative := rest.head? == some '-'
      let unsigned := if negative || rest.head? == some '+' then rest.drop 1 else rest
      let digits := unsigned.takeWhile Char.isDigit
      if digits.isEmpty then none
      else
        let size : Int := readDigits digits
        some (if negative then -size else size, unsigned.dropWhile Char.isDigit)
    else some (0, cs)
  | [] => some (0, [])

/-- A number at the head of a text: its sign, its digits before and after the point, its exponent,
and the rest of the text. Without point and exponent it is whole. -/
def readDecimal? (cs : List Char) : Option ((Int ⊕ Float) × List Char) := do
  let negative := cs.head? == some '-'
  let unsigned := if negative then cs.drop 1 else cs
  let whole := unsigned.takeWhile Char.isDigit
  let rest := unsigned.dropWhile Char.isDigit
  if whole.isEmpty then none
  else if rest.head? == some '.' then
    let fraction := (rest.drop 1).takeWhile Char.isDigit
    if fraction.isEmpty then none
    else
      let (exponent, rest) ← readExponent? ((rest.drop 1).dropWhile Char.isDigit)
      some (.inr (assembleFloat negative whole fraction exponent), rest)
  else if rest.head? == some 'e' || rest.head? == some 'E' then
    let (exponent, rest) ← readExponent? rest
    some (.inr (assembleFloat negative whole [] exponent), rest)
  else
    let size : Int := readDigits whole
    some (.inl (if negative then -size else size), rest)

/-- The floating point number that a text names. -/
def readFloat? (s : String) : Option Float :=
  match s with
  | "nan" => some (0.0 / 0.0)
  | "inf" => some (1.0 / 0.0)
  | "-inf" => some (-1.0 / 0.0)
  | _ =>
    match readDecimal? s.toList with
    | some (.inr x, []) => some x
    | some (.inl i, []) => some (Float.ofInt i)
    | _ => none

end BoundQuery
