import BoundQuery.Text.Hex

/-!
# UTF-8

Bytes are read as UTF-8 one at a time. A machine stands either between two characters or inside
one; inside, it knows how many continuation bytes are owed and which bytes the next one may be.
Overlong forms, surrogates and code points past `U+10FFFF` are ruled out by the bounds on the
second byte, so the first byte that cannot continue is the one that is blamed.

## Main definitions

* `Utf8.Malformed`: where a byte sequence stops being UTF-8, and how many bytes are to blame.
* `Utf8.decode`: the text of a byte sequence, or where it is malformed.
-/

namespace BoundQuery.Utf8

/-- Where a byte sequence stops being UTF-8. -/
structure Malformed where
  offset : Nat
  /-- The number of bytes to blame, or nothing when the input ends inside a character. -/
  width : Option Nat
deriving DecidableEq, Repr

def Malformed.message (m : Malformed) : String :=
  match m.width with
  | some width => s!"invalid utf-8 sequence of {width} bytes from index {m.offset}"
  | none => s!"incomplete utf-8 byte sequence from index {m.offset}"

/-- The number of bytes to blame in an input of a given length: where it ends inside a character,
all that it has of it. -/
def Malformed.widthIn (length : Nat) (m : Malformed) : Nat := m.width.getD (length - m.offset)

/-- A description of the fault in the given bytes that shows the byte to blame where it is one. -/
def Malformed.messageIn (bytes : List UInt8) (m : Malformed) : String :=
  let width := m.widthIn bytes.length
  let last := m.offset + width - 1
  let culprit :=
    match width, bytes[m.offset]? with
    | 1, some b => "byte 0x" ++ String.ofList (hexDigits 2 b.toNat) ++ s!" in position {last}"
    | _, _ => s!"bytes in position {m.offset}-{last}"
  "'utf-8' codec can't decode " ++ culprit ++ ": invalid utf-8"

/-- A character part way through. -/
structure Pending where
  start : Nat
  owed : Nat
  low : UInt8
  high : UInt8
  code : Nat
deriving DecidableEq, Repr

/-- What a first byte at `index` that is not ASCII begins, if it may begin a character. -/
def Pending.ofLead (index : Nat) (b : UInt8) : Option Pending :=
  let bits (mask : Nat) : Nat := b.toNat % mask
  if 0xC2 ≤ b && b ≤ 0xDF then some ⟨index, 1, 0x80, 0xBF, bits 0x20⟩
  else if b == 0xE0 then some ⟨index, 2, 0xA0, 0xBF, bits 0x10⟩
  else if b == 0xED then some ⟨index, 2, 0x80, 0x9F, bits 0x10⟩
  else if 0xE1 ≤ b && b ≤ 0xEF then some ⟨index, 2, 0x80, 0xBF, bits 0x10⟩
  else if b == 0xF0 then some ⟨index, 3, 0x90, 0xBF, bits 0x08⟩
  else if b == 0xF4 then some ⟨index, 3, 0x80, 0x8F, bits 0x08⟩
  else if 0xF1 ≤ b && b ≤ 0xF3 then some ⟨index, 3, 0x80, 0xBF, bits 0x08⟩
  else none

/-- The bits read after a continuation byte. -/
def Pending.extend (p : Pending) (b : UInt8) : Nat := p.code * 0x40 + b.toNat % 0x40

/-- The characters of `bytes`, of which `index` bytes were read before. -/
def decodeFrom (index : Nat) (pending : Option Pending) (bytes : List UInt8) :
    Except Malformed (List Char) :=
  match pending, bytes with
  | none, [] => .ok []
  | some p, [] => .error ⟨p.start, none⟩
  | none, b :: rest =>
    if b < 0x80 then
      (Char.ofNat b.toNat :: ·) <$> decodeFrom (index + 1) none rest
    else
      match Pending.ofLead index b with
      | some p => decodeFrom (index + 1) (some p) rest
      | none => .error ⟨index, some 1⟩
  | some p, b :: rest =>
    if p.low ≤ b && b ≤ p.high then
      match p.owed with
      | 0 | 1 => (Char.ofNat (p.extend b) :: ·) <$> decodeFrom (index + 1) none rest
      | owed + 1 =>
        decodeFrom (index + 1) (some ⟨p.start, owed, 0x80, 0xBF, p.extend b⟩) rest
    else .error ⟨p.start, some (index - p.start)⟩

/-- The text of a byte sequence, or where it stops being UTF-8. -/
def decode (bytes : List UInt8) : Except Malformed String :=
  String.ofList <$> decodeFrom 0 none bytes

@[simp] theorem decode_nil : decode [] = .ok "" := rfl

/-- An ASCII byte stands for itself. -/
theorem decodeFrom_ascii {b : UInt8} (h : b < 0x80) (index : Nat) (rest : List UInt8) :
    decodeFrom index none (b :: rest) =
      (Char.ofNat b.toNat :: ·) <$> decodeFrom (index + 1) none rest := by
  simp [decodeFrom, h]

end BoundQuery.Utf8
