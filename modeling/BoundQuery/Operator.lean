/-!
# Operators

The words of the condition language. A comparison sets an expression against one placeholder, a
connective joins conditions, and an operation names one of the leaf conditions in a call. The case
of each word is fixed: `like` is lower case, the connectives are upper case.

## Main definitions

* `Comparison`, `Comparison.symbol`: the seven comparisons and their words.
* `Connective`, `Connective.name`: the connectives and their words.
* `Operation`, `Operation.name`, `Operation.comparison?`: the leaf operations.
* `placeholder`: the mark that stands for a bound value.
-/

namespace BoundQuery

/-- The mark that stands for a bound value. -/
def placeholder : String := "?"

/-- The ways to set an expression against one value. -/
inductive Comparison where
  | equal
  | notEqual
  | greater
  | atLeast
  | less
  | atMost
  | like
deriving DecidableEq, Repr

namespace Comparison

def all : List Comparison := [equal, notEqual, greater, atLeast, less, atMost, like]

def symbol : Comparison → String
  | equal => "="
  | notEqual => "<>"
  | greater => ">"
  | atLeast => ">="
  | less => "<"
  | atMost => "<="
  | like => "like"

def ofSymbol? (s : String) : Option Comparison := all.find? (·.symbol == s)

def symbols : List String := (all.map symbol).mergeSort (fun a b => decide (a ≤ b))

theorem mem_all (c : Comparison) : c ∈ all := by cases c <;> simp [all]

@[simp] theorem ofSymbol?_symbol (c : Comparison) : ofSymbol? c.symbol = some c := by
  cases c <;> decide

theorem symbol_injective {a b : Comparison} (h : a.symbol = b.symbol) : a = b := by
  have := ofSymbol?_symbol a
  rw [h, ofSymbol?_symbol] at this
  exact (Option.some.inj this).symm

theorem ofSymbol?_eq_some {s : String} {c : Comparison} :
    ofSymbol? s = some c ↔ s = c.symbol := by
  constructor
  · intro h
    have := List.find?_some h
    exact (eq_of_beq this).symm
  · rintro rfl
    exact ofSymbol?_symbol c

end Comparison

/-- The words that join conditions. -/
inductive Connective where
  | and
  | or
deriving DecidableEq, Repr

namespace Connective

def all : List Connective := [and, or]

def name : Connective → String
  | and => "AND"
  | or => "OR"

def ofName? (s : String) : Option Connective := all.find? (·.name == s)

def separator (c : Connective) : String := " " ++ c.name ++ " "

@[simp] theorem ofName?_name (c : Connective) : ofName? c.name = some c := by
  cases c <;> decide

theorem ofName?_eq_some {s : String} {c : Connective} : ofName? s = some c ↔ s = c.name := by
  constructor
  · intro h
    have := List.find?_some h
    exact (eq_of_beq this).symm
  · rintro rfl
    exact ofName?_name c

end Connective

/-- The leaf operations that a predicate can be built by name with. -/
inductive Operation where
  | eq
  | ne
  | gt
  | gte
  | lt
  | lte
  | like
  | isIn
  | between
  | isNull
  | isNotNull
deriving DecidableEq, Repr

namespace Operation

def all : List Operation :=
  [eq, ne, gt, gte, lt, lte, like, isIn, between, isNull, isNotNull]

def name : Operation → String
  | eq => "EQ"
  | ne => "NE"
  | gt => "GT"
  | gte => "GTE"
  | lt => "LT"
  | lte => "LTE"
  | like => "LIKE"
  | isIn => "IN"
  | between => "BETWEEN"
  | isNull => "IS_NULL"
  | isNotNull => "IS_NOT_NULL"

/-- The comparison that an operation makes, if it makes one. -/
def comparison? : Operation → Option Comparison
  | eq => some .equal
  | ne => some .notEqual
  | gt => some .greater
  | gte => some .atLeast
  | lt => some .less
  | lte => some .atMost
  | like => some .like
  | isIn | between | isNull | isNotNull => none

def ofName? (s : String) : Option Operation := all.find? (·.name == s)

theorem mem_all (op : Operation) : op ∈ all := by cases op <;> simp [all]

@[simp] theorem ofName?_name (op : Operation) : ofName? op.name = some op := by
  cases op <;> decide

theorem name_injective {a b : Operation} (h : a.name = b.name) : a = b := by
  have := ofName?_name a
  rw [h, ofName?_name] at this
  exact (Option.some.inj this).symm

end Operation

end BoundQuery
