import BoundQuery.Issue
import BoundQuery.Text.Utf8

/-!
# Failures

An operation that cannot be carried out names its cause. A cause belongs to a family, says in
words what went wrong, may name the argument at fault, and may carry the issues of the data that
it refused.

## Main definitions

* `Failure`: the causes.
* `Family`, `Failure.family`: the families of causes.
* `Family.isA`: which families are special cases of which.
* `Failure.message`, `Failure.argument?`, `Failure.issues?`: what a report shows.
-/

namespace BoundQuery

/-- The cause of an operation that was not carried out. -/
inductive Failure where
  -- arguments of compositions and of the registry
  | emptyIn (expr : String)
  | absentBound (name : String)
  | notOperandList (kind : String)
  | emptyGroup (joiner : Connective)
  | operandCount (op : Operation) (expected found : Nat)
  | inOperands (found : Nat)
  | operationKind (kind : String)
  | unknownOperation (name : String) (registered : List String)
  -- data that was read
  | malformedPredicate (issues : List Issue)
  | malformedFields (issues : List Issue)
  | malformedSettings (issues : List Issue)
  | unhashable (kind : String)
  -- values that are not what they are used as
  | notIterable (kind : String)
  | notJoinable
  | joinedItem (index : Nat) (kind : String)
  | joinedBytes (index : Nat) (kind : String)
  | unordered (symbol kind : String)
  | noAttribute (kind name : String)
  | notSubscriptable (kind : String)
  | absentKey (key : String)
  | notPrefixable (kind other : String)
  | pairLength (index length : Nat)
  | pairKind (index : Nat)
  | tooFewOperands
  | tooManyOperands
  | notWhole (kind : String)
  | zeroStep
  -- documents that cannot be written
  | unwritableBytes (fault : Utf8.Malformed)
  | unwritable (kind : String)
  | unwritableNameBytes (bytes : List UInt8) (fault : Utf8.Malformed)
  | unwritableName (kind : String)
  | notName (kind : String)
  | tooDeep
  -- reports of failures, made with the wrong arguments
  | missingArgument (report name : String)
  | extraArguments (report : String) (found : Nat)
  -- references that lead nowhere or in a circle
  | unknownStatement
  | cyclic
deriving DecidableEq, Repr

/-- The families of causes. -/
inductive Family where
  | any
  | library
  | argument
  | settings
  | fields
  | type
  | value
  | member
  | key
  | writing
  | recursion
deriving DecidableEq, Repr

/-- The families that a family is an immediate special case of. -/
def Family.parents : Family → List Family
  | any => []
  | argument => [library, value]
  | settings => [library]
  | fields | writing => [value]
  | library | type | value | member | key | recursion => [any]

/-- Whether every failure of a family belongs to another. -/
def Family.isA (family other : Family) : Bool :=
  family == other || other == any || family.parents.contains other

namespace Failure

def family : Failure → Family
  | emptyIn _ | absentBound _ | notOperandList _ | emptyGroup _ | operandCount .. | inOperands _
  | operationKind _ | unknownOperation .. | malformedPredicate _ => .argument
  | malformedFields _ => .fields
  | malformedSettings _ => .settings
  | unhashable _ | notIterable _ | notJoinable | joinedItem .. | joinedBytes .. | unordered ..
  | notSubscriptable _ | notPrefixable .. | pairKind _ | notWhole _ | missingArgument ..
  | extraArguments .. => .type
  | noAttribute .. => .member
  | absentKey _ => .key
  | pairLength .. | tooFewOperands | tooManyOperands | zeroStep => .value
  | unwritableBytes _ | unwritable _ | unwritableNameBytes .. | unwritableName _ | notName _
  | tooDeep => .writing
  | unknownStatement => .value
  | cyclic => .recursion

def unwritten (reason : String) : String := "Error serializing to JSON: " ++ reason

def unknownKind (kind : String) : String := s!"Unable to serialize unknown type: <class '{kind}'>"

def message : Failure → String
  | emptyIn expr => s!"IN predicate on '{expr}' has no values."
  | absentBound name => s!"{name} must not be None!"
  | notOperandList kind => s!"IN values must be a non-string iterable, got {kind}."
  | emptyGroup joiner => joiner.name ++ " requires at least one predicate."
  | operandCount op expected found =>
    op.name ++ s!" expects {expected} value(s), got {found}."
  | inOperands found =>
    "IN expects a single list of values or one to two scalar values, " ++
      s!"got {found} argument(s)."
  | operationKind kind => s!"Logical operation must be a LogicalOp or str, got {kind}."
  | unknownOperation name registered =>
    let operations := quoteTexts registered
    s!"Unsupported logical operation: '{name}'. Registered operations: {operations}."
  | malformedPredicate _ => "Invalid predicate"
  | malformedFields _ => "Invalid fields"
  | malformedSettings _ => "Invalid selectQL config"
  | unhashable kind => s!"unhashable type: '{kind}'"
  | notIterable kind => s!"'{kind}' object is not iterable"
  | notJoinable => "can only join an iterable"
  | joinedItem index kind => s!"sequence item {index}: expected str instance, {kind} found"
  | joinedBytes index kind =>
    s!"sequence item {index}: expected a bytes-like object, {kind} found"
  | unordered symbol kind =>
    s!"'{symbol}' not supported between instances of '{kind}' and 'int'"
  | noAttribute kind name => s!"'{kind}' object has no attribute '{name}'"
  | notSubscriptable kind => s!"'{kind}' object is not subscriptable"
  | absentKey key => key
  | notPrefixable kind other =>
    if kind == "bytes" then "can't concat " ++ other ++ " to bytes"
    else if ["str", "list", "tuple"].contains kind then
      "can only concatenate " ++ kind ++ " (not \"" ++ other ++ "\") to " ++ kind
    else s!"unsupported operand type(s) for +: '{kind}' and '{other}'"
  | pairLength index length =>
    s!"dictionary update sequence element #{index} has length {length}; 2 is required"
  | pairKind index => s!"cannot convert dictionary update sequence element #{index} to a sequence"
  | tooFewOperands => "not enough values to unpack (expected 1, got 0)"
  | tooManyOperands => "too many values to unpack (expected 1)"
  | notWhole kind => s!"'{kind}' object cannot be interpreted as an integer"
  | zeroStep => "range() arg 3 must not be zero"
  | unwritableBytes fault => unwritten fault.message
  | unwritable kind => unknownKind kind
  | unwritableNameBytes bytes fault => unwritten ("UnicodeDecodeError: " ++ fault.messageIn bytes)
  | unwritableName kind => unwritten ("PydanticSerializationError: " ++ unknownKind kind)
  | notName kind => unwritten ("TypeError: `" ++ kind ++ "` not valid as object key")
  | tooDeep => unwritten "ValueError: Maximum serialization depth exceeded"
  | missingArgument report name =>
    s!"{report}.__init__() missing 1 required positional argument: '{name}'"
  | extraArguments report found =>
    s!"{report}.__init__() takes from 2 to 3 positional arguments but {found} were given"
  | unknownStatement => "no such statement"
  | cyclic => "maximum recursion depth exceeded"

/-- The argument at fault, where a cause names one. -/
def argument? : Failure → Option String
  | emptyIn _ | notOperandList _ | operandCount .. | inOperands _ => some "values"
  | absentBound name => some name
  | emptyGroup _ => some "predicates"
  | operationKind _ | unknownOperation .. => some "op"
  | malformedPredicate _ => some "predicate"
  | _ => none

/-- The issues of the data that was refused. -/
def issues? : Failure → Option (List Issue)
  | malformedPredicate issues | malformedFields issues | malformedSettings issues => some issues
  | _ => none

/-- Every unusable argument is named. -/
theorem argument?_isSome_iff (f : Failure) : f.argument?.isSome ↔ f.family = .argument := by
  cases f <;> simp [argument?, family]

end Failure

/-- The result of a reading, where its issues make up the given failure. -/
def Decoded.toExcept {α : Type} (failure : List Issue → Failure) : Decoded α → Except Failure α
  | valid a => .ok a
  | invalid issues => .error (failure issues)
  | unhashable kind => .error (.unhashable kind)

end BoundQuery
