import BoundQuery.Proofs.Placeholder.Plain
import BoundQuery.Proofs.Statement.Section

/-!
# The filled text of a statement

The filled text of a statement is written clause by clause like its text, but each operand of a
condition stands in the place of its own placeholder, and columns and branches are filled in turn.
No list of values goes into it.

## Main definitions

* `Statement.filled`, `Store.filled`: the filled texts of statements.

## Main statements

* `Statement.reads_filledConditions`, `Statement.values_filledConditions`: a section of conditions,
  its text and its operands.
-/

namespace BoundQuery

abbrev Filling : Type := Except Failure (List (Token Value))

/-- What a value takes into a filled text: a statement its own, and any other value its display. -/
def Value.filled (fill : Ref → Filling) : Value → Filling
  | statement r => fill r
  | v => chars <$> v.display Resolver.empty

namespace Statement

/-- Columns after the leading words, the subselects among them filled. -/
def filledColumns (fill : Ref → Filling) (columns : List Value) (distinct : Bool) : Filling := do
  let lead := if distinct then "SELECT distinct " else "SELECT "
  match columns with
  | [] => return chars (lead ++ "*")
  | columns => return chars lead ++ (chars ", ").intercalate (← columns.mapM (·.filled fill))

/-- Conditions after the leading words, each with its operands in their places. -/
def filledConditions (lead : String) : List Condition → List (Token Value)
  | [] => []
  | first :: rest =>
    (chars lead :: first.predicate.filled ::
      rest.flatMap fun c => [chars c.connective.separator, c.predicate.filled]).flatten

/-- Filled branches, each after the leading word. -/
def filledBranches (fill : Ref → Filling) (branches : List Value) : Filling := do
  let filled ← branches.mapM (·.filled fill)
  return (filled.map (chars " UNION " ++ ·)).flatten

/-- The filled clauses of a statement, one after the other. -/
def filledBody (fill : Ref → Filling) (s : Statement) : Filling := do
  let columns ← filledColumns fill s.columns s.distinct
  let sources ← Clause.list " FROM " s.sources
  let joins ← Clause.fragments .null (s.joins.map Join.fragment)
  let rows := filledConditions Filter.rows.lead s.rowConditions
  let groupings ← Clause.list " GROUP BY " s.groupings
  let groups := filledConditions Filter.groups.lead s.groupConditions
  let orderings ← Clause.list " ORDER BY " s.orderings
  let limit ← Clause.limit Resolver.empty s.limit s.offset
  let branches ← filledBranches fill s.branches
  return columns ++ chars sources ++ chars joins ++ rows ++ chars groupings ++ groups ++
    chars orderings ++ chars limit ++ branches

/-- The filled text of a statement. -/
def filled (fill : Ref → Filling) (variant : Variant) (s : Statement) : Filling :=
  match variant with
  | .query => s.filledBody fill
  | .subselect => do
    let body ← s.filledBody fill
    let label ← s.label.display Resolver.empty
    return chars "(" ++ body ++ chars (") as " ++ label)

end Statement

namespace Store

/-- The filled texts of statements at most so deep. -/
def filledWithin (store : Store) : Nat → Ref → Filling
  | 0, _ => .error .cyclic
  | depth + 1, r => do
    let s ← store.find r
    s.filled (filledWithin store depth) r.variant

def filled (store : Store) (r : Ref) : Filling := store.filledWithin (store.size + 1) r

end Store

namespace Store

theorem filledWithin_succ {store : Store} {r : Ref} {s : Statement} (hs : store.get? r = some s)
    (n : Nat) : store.filledWithin (n + 1) r = s.filled (store.filledWithin n) r.variant := by
  simp only [filledWithin, find, hs]
  rfl

theorem filledWithin_succ_of_none {store : Store} {r : Ref} (hr : store.get? r = none) (n : Nat) :
    store.filledWithin (n + 1) r = .error .unknownStatement := by
  simp only [filledWithin, find, hr]
  rfl

end Store

/-! ## Sections of conditions -/

namespace Statement

theorem reads_filledConditions {lead t : String} (hlead : Unmarked lead)
    {conditions : List Condition} (hconditions : ∀ c ∈ conditions, c.predicate.Plain)
    (ht : Clause.fragments (.text lead) (conditions.map Condition.fragment) = .ok t) :
    Reads (filledConditions lead conditions) t := by
  cases conditions with
  | nil =>
    cases ht
    exact .nil
  | cons first rest =>
    have hjoined : t = String.join (lead :: first.predicate.sql ::
        rest.flatMap fun c => [c.connective.separator, c.predicate.sql]) := by
      rw [Condition.fragments_eq] at ht
      simpa [Condition.chained, String.append_assoc] using (Except.ok.inj ht).symm
    rw [hjoined]
    refine .flatten (.cons (.of_unmarked hlead) (.cons ?_ ?_))
    · exact first.predicate.reads_filled (hconditions first List.mem_cons_self)
    · have hrest := fun c hc => hconditions c (List.mem_cons_of_mem first hc)
      clear hconditions ht hjoined
      induction rest with
      | nil => exact .nil
      | cons c more ih =>
        refine .cons (.of_unmarked c.connective.unmarked_separator) (.cons ?_ (ih ?_))
        · exact c.predicate.reads_filled (hrest c List.mem_cons_self)
        · exact fun d hd => hrest d (List.mem_cons_of_mem _ hd)

@[simp] theorem values_filledConditions (lead : String) (conditions : List Condition) :
    values (filledConditions lead conditions) =
      conditions.flatMap (·.predicate.operands) := by
  cases conditions with
  | nil => rfl
  | cons first rest => simp [filledConditions, List.flatMap_assoc]

end Statement

end BoundQuery
