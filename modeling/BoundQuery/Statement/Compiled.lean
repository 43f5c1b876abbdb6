import BoundQuery.Statement.Store

/-!
# Compiled statements

A statement compiled is its text with one value for every placeholder, in the order of the
placeholders: the values of the subselects among its columns, its own values part by part, and the
values of its branches.

## Main definitions

* `Compiled`: a text and its values.
* `Store.compile`: a statement compiled.
-/

namespace BoundQuery

/-- The subselect that a value is. -/
def Value.subselect? : Value → Option Ref
  | statement ⟨.subselect, index⟩ => some ⟨.subselect, index⟩
  | _ => none

/-- The statement that a value is; otherwise it lacks what is asked of one. -/
def Value.branch (request : String) : Value → Except Failure Ref
  | statement r => .ok r
  | v => .error (.noAttribute v.kindName request)

def Statement.subselects (s : Statement) : List Ref := s.columns.filterMap Value.subselect?

/-- A text with one value for every placeholder. -/
structure Compiled where
  sql : String
  params : List Value

/-- A statement compiled, given its parts compiled and its text. -/
def Statement.compileFrom (compile : Ref → Except Failure Compiled)
    (text : Except Failure String) (s : Statement) : Except Failure Compiled := do
  let columns ← s.subselects.mapM compile
  let branches ← s.branches.mapM fun v => do
    compile (← v.branch "build")
  let sql ← text
  return ⟨sql, columns.flatMap (·.params) ++ s.boundInOrder ++ branches.flatMap (·.params)⟩

namespace Store

/-- A statement compiled, with parts of it at most so deep. -/
def compileWithin (store : Store) : Nat → Ref → Except Failure Compiled
  | 0, _ => .error .cyclic
  | depth + 1, r => do
    let s ← store.find r
    s.compileFrom (compileWithin store depth) (store.text r)

def compile (store : Store) (r : Ref) : Except Failure Compiled :=
  store.compileWithin (store.size + 1) r

end Store

end BoundQuery
