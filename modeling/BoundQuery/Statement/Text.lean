import BoundQuery.Statement.Basic

/-!
# The text of a statement

The clauses of a statement stand in a fixed order, and the first one that cannot be written is
what keeps the text from being written. A subselect stands in parentheses before its label.

## Main definitions

* `Statement.body`: the clauses one after the other.
* `Statement.text`: the text of a statement of a given shape.
-/

namespace BoundQuery.Statement

/-- The clauses of a statement, one after the other. -/
def body (resolve : Resolver) (s : Statement) : Except Failure String := do
  let columns ← Clause.select resolve s.columns s.distinct
  let sources ← Clause.list " FROM " s.sources
  let joins ← Clause.fragments .null (s.joins.map Join.fragment)
  let rows ← Clause.fragments (.text Filter.rows.lead) (s.rowConditions.map Condition.fragment)
  let groupings ← Clause.list " GROUP BY " s.groupings
  let groups ←
    Clause.fragments (.text Filter.groups.lead) (s.groupConditions.map Condition.fragment)
  let orderings ← Clause.list " ORDER BY " s.orderings
  let limit ← Clause.limit resolve s.limit s.offset
  let branches ← Clause.union resolve s.branches
  return columns ++ sources ++ joins ++ rows ++ groupings ++ groups ++ orderings ++ limit ++
    branches

def text (resolve : Resolver) (variant : Variant) (s : Statement) : Except Failure String :=
  match variant with
  | .query => s.body resolve
  | .subselect => do
    let body ← s.body resolve
    let label ← s.label.display resolve
    return "(" ++ body ++ ") as " ++ label

@[simp] theorem text_query (resolve : Resolver) (s : Statement) :
    s.text resolve .query = s.body resolve := rfl

/-- A statement without pieces selects everything from nothing. -/
@[simp] theorem body_blank (resolve : Resolver) (label : Value) (settings : Settings) :
    (blank label settings).body resolve = .ok "SELECT *" := rfl

end BoundQuery.Statement
