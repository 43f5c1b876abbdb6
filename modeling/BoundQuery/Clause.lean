import BoundQuery.Value.Collection
import BoundQuery.Value.Display

/-!
# Clauses

A statement's text is put together from clauses, each with its own leading words. A clause without
content is empty, so clauses can be written one after the other. Columns and branches are shown by
their displays; wherever else text is expected, every piece has to count as text.

The functions over loosely typed arguments take anything in place of the parts and say what is
wrong with them.

## Main definitions

* `Fragment`: a piece of a clause with what separates it from the piece before.
* `Clause.select`, `Clause.list`, `Clause.fragments`, `Clause.limit`, `Clause.union`: the clauses.
* `Clause.selectOf`, `Clause.listOf`, `Clause.fragmentsOf`, `Clause.unionOf`: the same over loosely
  typed arguments.
-/

namespace BoundQuery

/-- A piece of a clause, and what stands before it when it is not the first. -/
structure Fragment where
  expression : Value
  separator : Value

namespace Value

def atMostZero : Int ⊕ Float → Bool
  | .inl i => decide (i ≤ 0)
  | .inr x => decide (x ≤ 0)

def aboveZero : Int ⊕ Float → Bool
  | .inl i => decide (0 < i)
  | .inr x => decide (0 < x)

/-- The number of a value that is set against another by an order. -/
def ordered (symbol : String) (v : Value) : Except Failure (Int ⊕ Float) :=
  match v.number? with
  | some n => .ok n
  | none => .error (.unordered symbol v.kindName)

/-- The items of a value that have positions. -/
def positions? (v : Value) : Option (List Value) :=
  match v with
  | set _ | stream _ | mapping _ | predicate _ => none
  | v => v.items?

end Value

namespace Clause

/-- The texts that items count as; the first item has the given index. -/
def textsFrom (index : Nat) : List Value → Except Failure (List String)
  | [] => .ok []
  | item :: rest =>
    match item.text? with
    | some s => do return s :: (← textsFrom (index + 1) rest)
    | none => .error (.joinedItem index item.kindName)

/-- Items that count as text, with a separator between them. -/
def joinTexts (separator : String) (items : List Value) : Except Failure String := do
  return separator.intercalate (← textsFrom 0 items)

/-- The displays of columns, or a star for none, after the leading words. -/
def select (resolve : Resolver) (columns : List Value) (distinct : Bool) :
    Except Failure String := do
  let lead := if distinct then "SELECT distinct " else "SELECT "
  match columns with
  | [] => return lead ++ "*"
  | columns => return lead ++ ", ".intercalate (← columns.mapM (·.display resolve))

/-- Items with commas between them, after the leading words. -/
def list (lead : String) (items : List Value) : Except Failure String :=
  match items with
  | [] => .ok ""
  | items => return lead ++ (← joinTexts ", " items)

/-- The expressions of fragments, each after its separator; the first is after `lead`, or after
its own separator where `lead` is null. -/
def fragments (lead : Value) : List Fragment → Except Failure String
  | [] => .ok ""
  | first :: rest =>
    let lead := if lead.isNull then first.separator else lead
    joinTexts "" (lead :: first.expression :: rest.flatMap fun f => [f.separator, f.expression])

/-- A limit above zero, and an offset above zero after a comma. -/
def limit (resolve : Resolver) (limit offset : Value) : Except Failure String := do
  if Value.atMostZero (← limit.ordered "<=") then return ""
  else if Value.aboveZero (← offset.ordered ">") then
    return " LIMIT " ++ (← limit.display resolve) ++ ", " ++ (← offset.display resolve)
  else return " LIMIT " ++ (← limit.display resolve)

/-- The displays of branches, each after the leading word. -/
def union (resolve : Resolver) (branches : List Value) : Except Failure String := do
  let shown ← branches.mapM (·.display resolve)
  return String.join (shown.map (" UNION " ++ ·))

/-! ## Clauses of loosely typed arguments -/

/-- The columns clause of a value that should hold columns. -/
def selectOf (resolve : Resolver) (columns distinct : Value) : Except Failure String :=
  let distinct := distinct.isTrue
  if columns.isTrue then
    match columns.items? with
    | some [] => .ok (if distinct then "SELECT distinct " else "SELECT ")
    | some items => select resolve items distinct
    | none => .error (.notIterable columns.kindName)
  else select resolve [] distinct

/-- The bytes that items are; the first item has the given index. -/
def bytesFrom (index : Nat) : List Value → Except Failure (List (List UInt8))
  | [] => .ok []
  | .bytes bs :: rest => do return bs :: (← bytesFrom (index + 1) rest)
  | item :: _ => .error (.joinedBytes index item.kindName)

/-- The items of a value that should hold what can be joined. -/
def joinable (v : Value) : Except Failure (List Value) :=
  match v.items? with
  | some items => .ok items
  | none => .error .notJoinable

/-- The items of a value with separators between them: a text joins texts, and bytes join
bytes. -/
def joinOf (separator items : Value) : Except Failure Value :=
  match separator with
  | .bytes bs => do return .bytes (bs.intercalate (← bytesFrom 0 (← joinable items)))
  | separator =>
    match separator.text? with
    | some s => do return .text (← joinTexts s (← joinable items))
    | none => .error (.noAttribute separator.kindName "join")

/-- A value before another: text stands before text, and bytes before bytes. -/
def before (lead tail : Value) : Except Failure Value :=
  match lead, tail with
  | .bytes xs, .bytes ys => .ok (.bytes (xs ++ ys))
  | lead, tail =>
    match lead.text?, tail.text? with
    | some s, some t => .ok (.text (s ++ t))
    | some _, none => .error (.notPrefixable "str" tail.kindName)
    | none, _ => .error (.notPrefixable lead.kindName tail.kindName)

/-- The clause of a value that should hold texts, with separators between them; where they are
bytes the clause is bytes. -/
def listOf (items lead separator : Value) : Except Failure Value :=
  if items.isTrue then do before lead (← joinOf separator items)
  else .ok (.text "")

/-- The fragment that a value is; otherwise the named part of one is what it lacks. -/
def fragmentOf (part : String) (v : Value) : Except Failure Fragment :=
  match v with
  | .fragment expression separator => .ok ⟨expression, separator⟩
  | v => .error (.noAttribute v.kindName part)

/-- The clause of a value that should hold fragments. A mapping has a first fragment where it has
the key zero, but no others. -/
def fragmentsOf (items lead : Value) : Except Failure String :=
  let firstOf := fragmentOf (if lead.isNull then "separator" else "expression")
  if items.isTrue then
    match items with
    | .mapping entries => do
      match Value.at? (.int 0) entries with
      | none => .error (.absentKey "0")
      | some first =>
        let _ ← firstOf first
        .error (.unhashable "slice")
    | items =>
      match items.positions? with
      | none => .error (.notSubscriptable items.kindName)
      | some [] => .ok ""
      | some (first :: rest) => do
        let first ← firstOf first
        let rest ← rest.mapM (fragmentOf "separator")
        fragments lead (first :: rest)
  else .ok ""

/-- The branches clause of a value that should hold branches. -/
def unionOf (resolve : Resolver) (branches : Value) : Except Failure String :=
  match branches.items? with
  | some items => union resolve items
  | none => .error (.notIterable branches.kindName)

/-! ## Texts -/

@[simp] theorem textsFrom_text (index : Nat) (texts : List String) :
    textsFrom index (texts.map .text) = .ok texts := by
  induction texts generalizing index with
  | nil => rfl
  | cons s rest ih =>
    simp only [List.map_cons, textsFrom, Value.text?, ih]
    rfl

@[simp] theorem joinTexts_text (separator : String) (texts : List String) :
    joinTexts separator (texts.map .text) = .ok (separator.intercalate texts) := by
  simp only [joinTexts, textsFrom_text]
  rfl

@[simp] theorem select_nil (resolve : Resolver) (distinct : Bool) :
    select resolve [] distinct = .ok (if distinct then "SELECT distinct *" else "SELECT *") := by
  cases distinct <;> rfl

@[simp] theorem list_nil (lead : String) : list lead [] = .ok "" := rfl

@[simp] theorem fragments_nil (lead : Value) : fragments lead [] = .ok "" := rfl

/-- A limit of zero is no limit. -/
@[simp] theorem limit_zero (resolve : Resolver) (offset : Value) :
    limit resolve (.int 0) offset = .ok "" := rfl

@[simp] theorem union_nil (resolve : Resolver) : union resolve [] = .ok "" := rfl

end Clause

end BoundQuery
