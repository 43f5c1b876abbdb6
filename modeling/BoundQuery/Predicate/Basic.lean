import BoundQuery.Operator

/-!
# Predicates

A predicate is a condition whose operands are bound values. It is a tree over any type of operand:
its text depends on its expressions and its shape alone, and every operand has one placeholder in
the text.

A junction has a first child and further ones, so it is never empty; it always stands in
parentheses, also around a single child.

## Main definitions

* `Predicate`: the trees.
* `Predicate.sql`: the text of a predicate.
* `Predicate.operands`: the operands in the order of their placeholders.
* `Predicate.Kind`, `Predicate.kind`: the six shapes and their names.
-/

namespace BoundQuery

/-- A condition with operands of type `α`. -/
inductive Predicate (α : Type) where
  | comparison (op : Comparison) (expr : String) (value : α)
  | between (expr : String) (start stop : α)
  | isIn (expr : String) (values : List α)
  | nullCheck (expr : String) (negated : Bool)
  | not (child : Predicate α)
  | junction (joiner : Connective) (first : Predicate α) (rest : List (Predicate α))
deriving Inhabited

namespace Predicate

variable {α : Type}

/-- The shapes of a predicate. -/
inductive Kind where
  | comparison
  | between
  | isIn
  | nullCheck
  | not
  | junction
deriving DecidableEq, Repr

namespace Kind

def all : List Kind := [comparison, between, isIn, nullCheck, not, junction]

/-- The name of a shape in data. -/
def tag : Kind → String
  | comparison => "comparison"
  | between => "between"
  | isIn => "in"
  | nullCheck => "null_check"
  | not => "not"
  | junction => "junction"

def ofTag? (s : String) : Option Kind := all.find? (·.tag == s)

/-- The name of a shape where values are shown. -/
def display : Kind → String
  | comparison => "ComparisonPredicate"
  | between => "BetweenPredicate"
  | isIn => "InPredicate"
  | nullCheck => "NullCheckPredicate"
  | not => "NotPredicate"
  | junction => "JunctionPredicate"

/-- The names of the fields of a shape, without its tag. -/
def fields : Kind → List String
  | comparison => ["op", "expr", "value"]
  | between => ["expr", "start", "end"]
  | isIn => ["expr", "values"]
  | nullCheck => ["expr", "negated"]
  | not => ["child"]
  | junction => ["joiner", "children"]

@[simp] theorem ofTag?_tag (k : Kind) : ofTag? k.tag = some k := by cases k <;> decide

theorem ofTag?_eq_some {s : String} {k : Kind} : ofTag? s = some k ↔ s = k.tag := by
  constructor
  · intro h
    have := List.find?_some h
    exact (eq_of_beq this).symm
  · rintro rfl
    exact ofTag?_tag k

end Kind

def kind : Predicate α → Kind
  | comparison .. => .comparison
  | between .. => .between
  | isIn .. => .isIn
  | nullCheck .. => .nullCheck
  | not _ => .not
  | junction .. => .junction

/-- The conditions that a predicate is put together from. -/
def children : Predicate α → List (Predicate α)
  | not child => [child]
  | junction _ first rest => first :: rest
  | _ => []

/-- The junction of a list of conditions, if there is one at least. -/
def junction? (joiner : Connective) : List (Predicate α) → Option (Predicate α)
  | [] => none
  | first :: rest => some (junction joiner first rest)

/-- As many placeholders as there are operands, with commas between them. -/
def placeholders (values : List α) : String :=
  ", ".intercalate (values.map fun _ => placeholder)

mutual

def sql : Predicate α → String
  | comparison op expr _ => expr ++ " " ++ op.symbol ++ " " ++ placeholder
  | between expr _ _ => expr ++ " BETWEEN " ++ placeholder ++ " AND " ++ placeholder
  | isIn expr values => expr ++ " in (" ++ placeholders values ++ ")"
  | nullCheck expr negated => expr ++ (if negated then " is not null" else " is null")
  | not child => "not (" ++ child.sql ++ ")"
  | junction joiner first rest => "(" ++ first.sql ++ joinedSql joiner rest ++ ")"

def joinedSql (joiner : Connective) : List (Predicate α) → String
  | [] => ""
  | child :: rest => joiner.separator ++ child.sql ++ joinedSql joiner rest

end

mutual

/-- The operands of a predicate in the order of their placeholders. -/
def operands : Predicate α → List α
  | comparison _ _ value => [value]
  | between _ start stop => [start, stop]
  | isIn _ values => values
  | nullCheck _ _ => []
  | not child => child.operands
  | junction _ first rest => first.operands ++ operandsOfAll rest

def operandsOfAll : List (Predicate α) → List α
  | [] => []
  | child :: rest => child.operands ++ operandsOfAll rest

end

@[simp] theorem sql_not (child : Predicate α) : (not child).sql = "not (" ++ child.sql ++ ")" := rfl

@[simp] theorem operands_not (child : Predicate α) : (not child).operands = child.operands := rfl

theorem operandsOfAll_eq_flatMap (ps : List (Predicate α)) :
    operandsOfAll ps = ps.flatMap operands := by
  induction ps with
  | nil => rfl
  | cons p rest ih => simp [operandsOfAll, ih]

@[simp] theorem operands_junction (joiner : Connective) (first : Predicate α)
    (rest : List (Predicate α)) :
    (junction joiner first rest).operands = (first :: rest).flatMap operands := by
  simp [operands, operandsOfAll_eq_flatMap]

end Predicate

end BoundQuery
