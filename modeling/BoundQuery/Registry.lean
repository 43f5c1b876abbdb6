import BoundQuery.Predicate.Compose
import BoundQuery.Run
import BoundQuery.Text.Uppercase

/-!
# Operations by name

A registry finds the handler of an operation by name, whatever the case of the name. It starts
with a handler for every leaf operation, and handlers can be added, replaced and removed. A name
may also be listed without a handler; it is then as good as missing.

## Main definitions

* `Handler`: what builds a predicate from an expression and operands.
* `Operation.handler`: the handler of a leaf operation.
* `Registry`: handlers under upper case names.
* `Registry.register`, `Registry.unregister`, `Registry.get?`, `Registry.names`: its operations.
* `Registry.create`: the predicate of an operation given by name, after its
  `Registry.announcement`.
-/

namespace BoundQuery

/-- What builds a predicate from an expression and operands. -/
abbrev Handler : Type := Value → List Value → Except Failure (Predicate Value)

/-- Check a number of operands. -/
def Operation.expect (op : Operation) (expected : Nat) (operands : List Value) :
    Except Failure Unit :=
  if operands.length == expected then .ok ()
  else .error (.operandCount op expected operands.length)

/-- An IN from a single list, or from one or two operands that are no lists. -/
def Handler.isIn : Handler := fun expr operands =>
  let isList (v : Value) : Bool := v.operandList?.isSome
  match operands with
  | [values] =>
    if isList values then Compose.isIn expr values else Compose.isIn expr (.tuple [values])
  | [a, b] =>
    if isList a || isList b then .error (.inOperands 2) else Compose.isIn expr (.tuple [a, b])
  | _ => .error (.inOperands operands.length)

/-- The handler of a leaf operation. -/
def Operation.handler (op : Operation) : Handler := fun expr operands =>
  match op.comparison?, op with
  | some comparison, _ => do
    op.expect 1 operands
    Compose.compare comparison expr (operands.headD .null)
  | none, .isIn => Handler.isIn expr operands
  | none, .isNotNull => do
    op.expect 0 operands
    Compose.isNull true expr
  | none, .between => do
    op.expect 2 operands
    Compose.between expr (operands.headD .null) (operands.getD 1 .null)
  | none, _ => do
    op.expect 0 operands
    Compose.isNull false expr

namespace Handler

/-- A handler for texts that start with its one operand. -/
def startsWith : Handler := fun expr operands =>
  match operands with
  | [] => .error .tooFewOperands
  | [operand] => do
    let start ← operand.display Resolver.empty
    Compose.compare .like expr (.text (start ++ "%"))
  | _ => .error .tooManyOperands

/-- A handler for the opposite of an IN. -/
def notIn : Handler := fun expr operands => do
  let inner ← Compose.isIn expr (.tuple operands)
  Compose.negate (.predicate inner)

def isNull : Handler := fun expr _ => Compose.isNull false expr

end Handler

/-- Handlers under upper case names, each name once. -/
structure Registry where
  entries : List (String × Option Handler)

namespace Registry

/-- The registry with the leaf operations. -/
def builtin : Registry := ⟨Operation.all.map fun op => (op.name, some op.handler)⟩

/-- The name that an operation is found under. -/
def key (name : Value) : Except Failure String :=
  match name with
  | .operation op => .ok op.name
  | name =>
    match name.text? with
    | some s => .ok (uppercase s)
    | none => .error (.operationKind name.kindName)

def lookup (registry : Registry) (name : String) : Option Handler :=
  (registry.entries.lookup name).join

/-- Put a handler under an upper case name, or list the name without one. -/
def insert (registry : Registry) (name : String) (handler : Option Handler) : Registry :=
  ⟨(name, handler) :: registry.entries.filter fun e => e.1 != name⟩

def erase (registry : Registry) (name : String) : Registry :=
  ⟨registry.entries.filter fun e => e.1 != name⟩

def names (registry : Registry) : List String :=
  (registry.entries.map Prod.fst).mergeSort (fun a b => decide (a ≤ b))

/-- Register a handler, in place of an earlier one. -/
def register (name : Value) (handler : Option Handler) : Run Registry Unit := do
  let key ← Run.ofExcept (key name)
  Run.modify fun registry => registry.insert key handler

def unregister (name : Value) : Run Registry Unit := do
  let key ← Run.ofExcept (key name)
  Run.modify fun registry => registry.erase key

def get? (name : Value) : Run Registry (Option Handler) := do
  let key ← Run.ofExcept (key name)
  return (← Run.get).lookup key

/-- What is logged before a handler runs; nothing where the expression cannot be shown. -/
def announcement (resolve : Resolver) (key : String) (expr : Value) (operands : List Value) :
    Option Event :=
  (expr.literal resolve).toOption.map fun shown => .building key shown operands.length

/-- The predicate of an operation, given by name. -/
def create (resolve : Resolver) (name expr : Value) (operands : List Value) :
    Run Registry (Predicate Value) := do
  let key ← Run.ofExcept (key name)
  let registry ← Run.get
  match registry.lookup key with
  | none => do
    let shown ← Run.ofExcept (name.display resolve)
    Run.fail (.unknownOperation shown registry.names)
  | some handler => do
    (announcement resolve key expr operands).forM Run.emit
    Run.ofExcept (handler expr operands)

@[simp] theorem lookup_insert_self (registry : Registry) (name : String)
    (handler : Option Handler) : (registry.insert name handler).lookup name = handler := by
  simp [lookup, insert]

theorem lookup_filter_ne {β : Type} (entries : List (String × β)) {a b : String} (h : a ≠ b) :
    (entries.filter fun e => e.1 != b).lookup a = entries.lookup a := by
  induction entries with
  | nil => rfl
  | cons e rest ih =>
    obtain ⟨name, value⟩ := e
    by_cases hb : name = b
    · simp [hb, List.lookup_cons, ih, beq_false_of_ne h]
    · simp only [List.filter_cons, bne_iff_ne, ne_eq, hb, not_false_eq_true, if_true,
        List.lookup_cons, ih]

end Registry

end BoundQuery
