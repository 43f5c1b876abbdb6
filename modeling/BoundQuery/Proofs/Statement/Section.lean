import BoundQuery.Statement.Basic

/-!
# The text of a section of conditions

A section of conditions is written condition by condition, each after its connective, the first
after the words that lead the section.

## Main definitions

* `Statement.conditionsText`: the text of a section of conditions.
* `Condition.chained`: the texts of conditions, each after its connective.
-/

namespace BoundQuery

/-- The text of a section of conditions, with the words that lead it. -/
def Statement.conditionsText (s : Statement) (filter : Filter) : Except Failure String :=
  Clause.fragments (.text filter.lead) ((s.conditions filter).map Condition.fragment)

namespace Condition

/-- The texts of conditions, each after its connective. -/
def chained (cs : List Condition) : String :=
  String.join (cs.flatMap fun c => [c.connective.separator, c.predicate.sql])

@[simp] theorem chained_nil : chained [] = "" := by simp [chained]

@[simp] theorem chained_cons (c : Condition) (rest : List Condition) :
    chained (c :: rest) = c.connective.separator ++ c.predicate.sql ++ chained rest := by
  simp [chained, String.append_assoc]

private theorem intercalate_empty (texts : List String) :
    "".intercalate texts = String.join texts := by
  induction texts with
  | nil => rfl
  | cons s rest ih =>
    cases rest with
    | nil => simp
    | cons t more =>
      rw [String.intercalate_cons_cons, ih]
      simp

/-- The first condition stands after the leading words, and the others after their connectives. -/
theorem fragments_eq (lead : String) (c : Condition) (rest : List Condition) :
    Clause.fragments (.text lead) ((c :: rest).map fragment) =
      .ok (lead ++ c.predicate.sql ++ chained rest) := by
  have hitems : Value.text lead :: .text c.predicate.sql ::
      (rest.map fragment).flatMap (fun f => [f.separator, f.expression]) =
        (lead :: c.predicate.sql ::
          rest.flatMap fun c => [c.connective.separator, c.predicate.sql]).map .text := by
    simp [List.flatMap_map, List.map_flatMap, fragment]
  change Clause.joinTexts "" (Value.text lead :: .text c.predicate.sql ::
    (rest.map fragment).flatMap fun f => [f.separator, f.expression]) = _
  rw [hitems, Clause.joinTexts_text, intercalate_empty]
  simp [chained, String.append_assoc]

end Condition

end BoundQuery
