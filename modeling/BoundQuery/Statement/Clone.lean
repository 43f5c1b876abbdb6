import BoundQuery.Statement.Compiled

/-!
# Copies of statements

A copy shares nothing with its statement that could change: the subselects among the columns and
the branches are copied too, in this order and before the statement itself. Other columns, also
statements that are no subselects, stay what they are.

## Main definitions

* `Store.clone`: a copy of a statement.
-/

namespace BoundQuery

/-- A statement with other columns and branches in place of its own, turned to its text. -/
def Statement.copy (s : Statement) (columns branches : List Value) : Statement :=
  { s.turnTo .text with columns, branches }

namespace Store

def cloneColumn (clone : Ref → Run Store Ref) (column : Value) : Run Store Value :=
  match column.subselect? with
  | some r => .statement <$> clone r
  | none => pure column

def cloneBranch (clone : Ref → Run Store Ref) (branch : Value) : Run Store Value := do
  let r ← Run.ofExcept (branch.branch "clone")
  .statement <$> clone r

/-- A copy of a statement, with parts of it at most so deep. -/
def cloneWithin : Nat → Ref → Run Store Ref
  | 0, _ => Run.fail .cyclic
  | depth + 1, r => do
    let s ← Run.ofExcept ((← Run.get).find r)
    let columns ← s.columns.mapM (cloneColumn (cloneWithin depth))
    let branches ← s.branches.mapM (cloneBranch (cloneWithin depth))
    Run.emit (.cloned r.variant s.bound.length)
    create r.variant (s.copy columns branches)

/-- A copy of a statement. Where there can be none, the copies that were made of its parts are
given up, since nothing refers to them. -/
def clone (r : Ref) : Run Store Ref :=
  ⟨fun store =>
    let o := (cloneWithin (store.size + 1) r).run store
    match o.result with
    | .ok twin => ⟨o.state, o.events, .ok twin⟩
    | .error failure => ⟨o.state.keep store.size, o.events, .error failure⟩⟩

end Store

end BoundQuery
