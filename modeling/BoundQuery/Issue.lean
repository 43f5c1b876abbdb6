import BoundQuery.Text.Quoted
import BoundQuery.Value.Basic

/-!
# Faults of data

Data that should describe a predicate or settings is read field by field. A fault does not stop
the reading: every fault is reported with its cause and its place, so a reading ends with a result
or with a list of issues. One fault does stop it: a tag without a hash, which cannot be looked up.

## Main definitions

* `Issue`, `Issue.Cause`, `Issue.Step`: a fault, its cause, and a step of the path to it.
* `Issue.Cause.code`, `Issue.Cause.message`: the short name and the description of a cause.
* `Decoded`: a result, or what kept it from being one; an applicative that collects issues.
-/

namespace BoundQuery

/-- A list of texts, each in quotes, between brackets. -/
def quoteTexts (texts : List String) : String :=
  "[" ++ ", ".intercalate (texts.map quoteText) ++ "]"

namespace Issue

/-- A step of the path from a document to a part of it. -/
inductive Step where
  | field (name : String)
  | item (index : Int)
deriving DecidableEq, Repr

inductive Cause where
  | missing
  | extra
  | keyNotText
  | notText
  | notUtf8
  | notTruth
  | unreadTruth
  | notSequence
  | tooShort (least found : Nat)
  | noShape
  | notLiteral (expected : List String)
  | notChoice (expected : List String)
  | unknownComparison (found : String)
  | nullBound (field : String)
  | tooDeep
  | frozen
deriving DecidableEq, Repr

/-- Quoted texts with commas, and a word before the last. -/
def alternatives (texts : List String) : String :=
  match (texts.map quoteText).reverse with
  | [] => ""
  | [only] => only
  | last :: others => ", ".intercalate others.reverse ++ " or " ++ last

def Cause.code : Cause → String
  | missing => "missing"
  | extra => "extra_forbidden"
  | keyNotText => "invalid_key"
  | notText => "string_type"
  | notUtf8 => "string_unicode"
  | notTruth => "bool_type"
  | unreadTruth => "bool_parsing"
  | notSequence => "tuple_type"
  | tooShort .. => "too_short"
  | noShape => "union_tag_not_found"
  | notLiteral _ => "literal_error"
  | notChoice _ => "enum"
  | unknownComparison _ | nullBound _ => "value_error"
  | tooDeep => "recursion_loop"
  | frozen => "frozen_instance"

def Cause.message : Cause → String
  | missing => "Field required"
  | extra => "Extra inputs are not permitted"
  | keyNotText => "Keys should be strings"
  | notText => "Input should be a valid string"
  | notUtf8 => "Input should be a valid string, unable to parse raw data as a unicode string"
  | notTruth => "Input should be a valid boolean"
  | unreadTruth => "Input should be a valid boolean, unable to interpret input"
  | notSequence => "Input should be a valid tuple"
  | tooShort least found =>
    let noun := if least == 1 then "item" else "items"
    s!"Tuple should have at least {least} {noun} after validation, not {found}"
  | noShape => "Unable to extract tag using discriminator _predicate_discriminator()"
  | notLiteral expected | notChoice expected => "Input should be " ++ alternatives expected
  | unknownComparison found =>
    let expected := quoteTexts Comparison.symbols
    s!"Value error, Unsupported comparison operator '{found}'. Expected one of {expected}."
  | nullBound field => s!"Value error, {field} must not be None"
  | tooDeep => "Recursion error - cyclic reference detected"
  | frozen => "Instance is frozen"

end Issue

/-- A fault of data with the path to it. -/
structure Issue where
  path : List Issue.Step
  cause : Issue.Cause
deriving DecidableEq, Repr

/-- An issue seen from outside: its path takes one more step. -/
def Issue.under (step : Issue.Step) (issue : Issue) : Issue :=
  { issue with path := step :: issue.path }

/-- The outcome of reading data. -/
inductive Decoded (α : Type) where
  | valid (a : α)
  | invalid (issues : List Issue)
  | unhashable (kind : String)
deriving Repr

namespace Decoded

variable {α β : Type}

def fault (cause : Issue.Cause) : Decoded α := invalid [⟨[], cause⟩]

/-- Seen from outside: every path takes one more step. -/
def under (step : Issue.Step) : Decoded α → Decoded α
  | valid a => valid a
  | invalid issues => invalid (issues.map (Issue.under step))
  | unhashable kind => unhashable kind

/-- A further requirement on the result. -/
def andThen (d : Decoded α) (f : α → Decoded β) : Decoded β :=
  match d with
  | valid a => f a
  | invalid issues => invalid issues
  | unhashable kind => unhashable kind

/-- Read two parts in order; the issues of both are reported. -/
def both (f : Decoded (α → β)) (a : Unit → Decoded α) : Decoded β :=
  match f with
  | unhashable kind => unhashable kind
  | valid g =>
    match a () with
    | valid x => valid (g x)
    | invalid issues => invalid issues
    | unhashable kind => unhashable kind
  | invalid issues =>
    match a () with
    | valid _ => invalid issues
    | invalid more => invalid (issues ++ more)
    | unhashable kind => unhashable kind

instance : Applicative Decoded where
  pure := valid
  seq := both

@[simp] theorem pure_eq (a : α) : (pure a : Decoded α) = valid a := rfl

@[simp] theorem seq_eq (f : Decoded (α → β)) (a : Decoded α) : f <*> a = both f fun _ => a := rfl

@[simp] theorem map_eq (f : α → β) (a : Decoded α) : f <$> a = both (valid f) fun _ => a := rfl

@[simp] theorem both_valid (g : α → β) (x : α) : both (valid g) (fun _ => valid x) = valid (g x) :=
  rfl

@[simp] theorem under_valid (step : Issue.Step) (a : α) : (valid a).under step = valid a := rfl

/-- Two parts are valid together exactly when each is. -/
theorem both_eq_valid_iff {f : Decoded (α → β)} {a : Unit → Decoded α} {y : β} :
    both f a = valid y ↔ ∃ g x, f = valid g ∧ a () = valid x ∧ g x = y := by
  unfold both
  cases f <;> cases a () <;> simp

end Decoded

end BoundQuery
