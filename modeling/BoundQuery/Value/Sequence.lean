import BoundQuery.Value.Basic

/-!
# Values as sequences and as conditions

Many values can be gone through item by item: text by character, bytes by number, a mapping by
key, and a predicate by its fields, each a pair of name and value with the tag first. Values that
hold a list of operands are fewer: text, bytes and mappings count as one operand.

## Main definitions

* `Predicate.fieldValues`: the fields of a predicate.
* `Value.items?`: the items of a value.
* `Value.operandList?`: the items of a value that counts as a list of operands.
* `Value.conditionList?`: the items of a value that counts as a list of conditions.
* `Value.isTrue`: whether a value counts as true.
-/

namespace BoundQuery

/-- The fields of a predicate in order, its tag first. -/
def Predicate.fieldValues (p : Predicate Value) : List (String × Value) :=
  ("kind", .text p.kind.tag) ::
    match p with
    | .comparison op expr value => [("op", .text op.symbol), ("expr", .text expr), ("value", value)]
    | .between expr start stop => [("expr", .text expr), ("start", start), ("end", stop)]
    | .isIn expr values => [("expr", .text expr), ("values", .tuple values)]
    | .nullCheck expr negated => [("expr", .text expr), ("negated", .bool negated)]
    | .not child => [("child", .predicate child)]
    | .junction joiner first rest =>
      [("joiner", .connective joiner), ("children", .tuple ((first :: rest).map .predicate))]

theorem Predicate.map_fst_fieldValues (p : Predicate Value) :
    p.fieldValues.map Prod.fst = "kind" :: p.kind.fields := by
  cases p <;> rfl

namespace Value

def rangeLength (start stop step : Int) : Nat :=
  if 0 < step then ((stop - start - 1) / step + 1).toNat
  else if step < 0 then ((start - stop - 1) / (-step) + 1).toNat
  else 0

def rangeItems (start stop step : Int) : List Value :=
  (List.range (rangeLength start stop step)).map fun (i : Nat) => int (start + i * step)

/-- The items of a value that can be gone through. -/
def items? : Value → Option (List Value)
  | text s => some (s.toList.map fun c => text (String.singleton c))
  | operation op => some (op.name.toList.map fun c => text (String.singleton c))
  | connective c => some (c.name.toList.map fun c => text (String.singleton c))
  | bytes bs => some (bs.map fun b => int b.toNat)
  | list items | tuple items | set items | stream items => some items
  | range start stop step => some (rangeItems start stop step)
  | mapping entries => some (entries.map Prod.fst)
  | predicate p => some (p.fieldValues.map fun f => tuple [text f.1, f.2])
  | null | bool _ | int _ | float _ | fragment .. | statement _ => none

/-- The items of a value that counts as a list of operands: not text, bytes or a mapping. -/
def operandList? (v : Value) : Option (List Value) :=
  match v with
  | text _ | operation _ | connective _ | bytes _ | mapping _ => none
  | v => v.items?

/-- The items of a value that counts as a list of conditions: not text, a mapping or a
predicate. -/
def conditionList? (v : Value) : Option (List Value) :=
  match v with
  | text _ | operation _ | connective _ | mapping _ | predicate _ => none
  | v => v.items?

/-- Whether a value counts as true: zeros and empty values do not. -/
def isTrue : Value → Bool
  | null => false
  | bool b => b
  | int i => i != 0
  | float x => x != 0
  | text s => s != ""
  | bytes bs => !bs.isEmpty
  | list items | tuple items | set items => !items.isEmpty
  | range start stop step => rangeLength start stop step != 0
  | mapping entries => !entries.isEmpty
  | stream _ | operation _ | connective _ | fragment .. | predicate _ | statement _ => true

@[simp] theorem operandList?_list (items : List Value) : (list items).operandList? = some items :=
  rfl

@[simp] theorem conditionList?_list (items : List Value) :
    (list items).conditionList? = some items := rfl

/-- A range stops short of its end. -/
example : rangeItems 10 0 (-3) = [int 10, int 7, int 4, int 1] := rfl

end Value

end BoundQuery
