import BoundQuery.Decimal.Style
import BoundQuery.Failure
import BoundQuery.Value.Sequence

/-!
# Values as text

A value is shown in two ways. Its literal form tells values of different types apart: text stands
in quotes. Its display is what a statement's text takes in: text stands as it is, an operation or a
connective by its qualified name, a predicate as its fields, and a statement as its own text. The
text of a statement comes from outside, through a resolver, and may fail.

## Main definitions

* `Resolver`: the texts of statements.
* `Value.style`: how floating point numbers are shown.
* `Value.literal`, `Value.display`: the two forms.
-/

namespace BoundQuery

/-- The texts of statements by their identities. -/
abbrev Resolver : Type := Ref → Except Failure String

def Resolver.empty : Resolver := fun _ => .error .unknownStatement

namespace Value

/-- Digits stand in their places from `10 ^ -4` to below `10 ^ 16`, and exponents have a sign and
two digits at least. -/
def style : FloatStyle :=
  ⟨-4, 15, 2, fun isNaN negative => if isNaN then "nan" else if negative then "-inf" else "inf"⟩

/-- Shown items between parentheses; a comma follows the only one of a single. -/
def showTuple : List String → String
  | [item] => "(" ++ item ++ ",)"
  | items => "(" ++ ", ".intercalate items ++ ")"

/-- Shown items of a set between braces. -/
def showSet : List String → String
  | [] => "set()"
  | items => "\x7b" ++ ", ".intercalate items ++ "\x7d"

def showOperation (op : Operation) : String := "LogicalOp." ++ op.name

def showConnective (c : Connective) : String := "Junction." ++ c.name

def connectiveLiteral (c : Connective) : String :=
  "<" ++ showConnective c ++ ": " ++ quoteText c.name ++ ">"

def boolLiteral (b : Bool) : String := if b then "True" else "False"

mutual

/-- The literal form of a value. -/
def literal (resolve : Resolver) : Value → Except Failure String
  | null => .ok "None"
  | bool b => .ok (boolLiteral b)
  | int i => .ok (toString i)
  | float x => .ok (style.write x)
  | text s => .ok (quoteText s)
  | bytes bs => .ok (quoteBytes bs)
  | list items => do
    let shown ← literals resolve items
    return "[" ++ ", ".intercalate shown ++ "]"
  | tuple items => showTuple <$> literals resolve items
  | set items => showSet <$> literals resolve items
  | range start stop step =>
    .ok (if step == 1 then s!"range({start}, {stop})" else s!"range({start}, {stop}, {step})")
  | stream _ => .ok "<generator object>"
  | mapping entries => do
    let shown ← entryLiterals resolve entries
    return "\x7b" ++ ", ".intercalate shown ++ "\x7d"
  | operation op => .ok ("<" ++ showOperation op ++ ": " ++ quoteText op.name ++ ">")
  | connective c => .ok (connectiveLiteral c)
  | fragment expression separator => do
    let expression ← literal resolve expression
    let separator ← literal resolve separator
    return s!"ClauseFragment(expression={expression}, separator={separator})"
  | predicate p => do
    let fields ← fieldLiterals resolve p
    return p.kind.display ++ "(" ++ ", ".intercalate fields ++ ")"
  | statement r => do
    let text ← resolve r
    return r.variant.display ++ "(" ++ quoteText text ++ ")"

def literals (resolve : Resolver) : List Value → Except Failure (List String)
  | [] => .ok []
  | v :: rest => do
    let shown ← literal resolve v
    return shown :: (← literals resolve rest)

def entryLiterals (resolve : Resolver) : List (Value × Value) → Except Failure (List String)
  | [] => .ok []
  | (key, value) :: rest => do
    let key ← literal resolve key
    let value ← literal resolve value
    return (key ++ ": " ++ value) :: (← entryLiterals resolve rest)

/-- The fields of a predicate, each with its literal form. -/
def fieldLiterals (resolve : Resolver) : Predicate Value → Except Failure (List String)
  | .comparison op expr value => do
    let value ← literal resolve value
    return ["kind='comparison'", "op=" ++ quoteText op.symbol, "expr=" ++ quoteText expr,
      "value=" ++ value]
  | .between expr start stop => do
    let start ← literal resolve start
    let stop ← literal resolve stop
    return ["kind='between'", "expr=" ++ quoteText expr, "start=" ++ start, "end=" ++ stop]
  | .isIn expr values => do
    let values ← literals resolve values
    return ["kind='in'", "expr=" ++ quoteText expr, "values=" ++ showTuple values]
  | .nullCheck expr negated =>
    .ok ["kind='null_check'", "expr=" ++ quoteText expr, "negated=" ++ boolLiteral negated]
  | .not child => do
    let fields ← fieldLiterals resolve child
    return ["kind='not'", "child=" ++ child.kind.display ++ "(" ++ ", ".intercalate fields ++ ")"]
  | .junction joiner first rest => do
    let fields ← fieldLiterals resolve first
    let others ← predicateLiterals resolve rest
    let children := (first.kind.display ++ "(" ++ ", ".intercalate fields ++ ")") :: others
    return ["kind='junction'", "joiner=" ++ connectiveLiteral joiner,
      "children=" ++ showTuple children]

def predicateLiterals (resolve : Resolver) : List (Predicate Value) → Except Failure (List String)
  | [] => .ok []
  | p :: rest => do
    let fields ← fieldLiterals resolve p
    let others ← predicateLiterals resolve rest
    return (p.kind.display ++ "(" ++ ", ".intercalate fields ++ ")") :: others

end

/-- What a statement's text takes in for a value. -/
def display (resolve : Resolver) : Value → Except Failure String
  | text s => .ok s
  | operation op => .ok (showOperation op)
  | connective c => .ok (showConnective c)
  | predicate p => return " ".intercalate (← fieldLiterals resolve p)
  | statement r => resolve r
  | v => literal resolve v

@[simp] theorem display_text (resolve : Resolver) (s : String) :
    (text s).display resolve = .ok s := rfl

@[simp] theorem display_statement (resolve : Resolver) (r : Ref) :
    (statement r).display resolve = resolve r := rfl

end Value

end BoundQuery
