import BoundQuery.Proofs.Statement.Change
import BoundQuery.Statement.Clone

/-!
# Where bound values come from

A call that attaches a condition contributes the operands of the condition, and a call with a
parameter contributes a single value. No other call contributes, and neither does one that fails.
The bound values of a statement are its contributions one after the other.

## Main definitions

* `Contribution`: values that are contributed to a part of a text.
* `Call.contributions`: what a call contributes, if it succeeds.
* `Statement.Accounted`: a statement whose bound values are some contributions.

## Main statements

* `Statement.Accounted.apply`: a call that succeeds adds its contributions.
* `Statement.Accounted.boundInOrder_eq`: the contributions to each part follow each other.
-/

namespace BoundQuery

/-- Values that are contributed to a part of a text. -/
structure Contribution where
  part : Part
  values : List Value

/-- The values that some contributions have for a part. -/
def Contribution.valuesFor (part : Part) (cs : List Contribution) : List Value :=
  (cs.filter (·.part = part)).flatMap (·.values)

/-- What a call contributes, if it succeeds. -/
def Call.contributions : Call → List Contribution
  | attach filter _ condition =>
    match Predicate.ofValue? condition with
    | .ok p => [⟨.conditions filter, p.operands⟩]
    | .error _ => []
  | parameter value => [⟨.text, [value]⟩]
  | _ => []

theorem Call.contributions_attach (filter : Filter) (connective : Connective) {condition : Value}
    {p : Predicate Value} (hp : Predicate.ofValue? condition = .ok p) :
    (attach filter connective condition).contributions = [⟨.conditions filter, p.operands⟩] := by
  simp only [contributions, hp]

namespace Statement

/-- The bound values of a statement are those of some contributions one after the other, each value
with the part of its contribution, and the statement is turned to its text. -/
structure Accounted (s : Statement) (cs : List Contribution) : Prop where
  bound_eq : s.bound = cs.flatMap (·.values)
  parts_eq : s.parts = cs.flatMap fun c => List.replicate c.values.length c.part
  part_eq : s.part = .text

variable {s : Statement} {cs : List Contribution}

theorem accounted_blank (label : Value) (settings : Settings) :
    (blank label settings).Accounted [] := ⟨rfl, rfl, rfl⟩

theorem accounted_ofSource (source : Value) (settings : Settings) :
    (ofSource source settings).Accounted [] := ⟨rfl, rfl, rfl⟩

theorem Accounted.balanced (h : s.Accounted cs) : s.Balanced := by
  refine ⟨?_, h.part_eq⟩
  rw [h.parts_eq, h.bound_eq, List.length_flatMap, List.length_flatMap]
  simp

theorem Accounted.copy (h : s.Accounted cs) (columns branches : List Value) :
    (s.copy columns branches).Accounted cs := ⟨h.bound_eq, h.parts_eq, rfl⟩

theorem Accounted.bindAll (h : s.Accounted cs) (part : Part) (values : List Value) :
    (s.bindAll part values).Accounted (cs ++ [⟨part, values⟩]) :=
  ⟨by simp [Statement.bindAll, h.bound_eq], by simp [Statement.bindAll, h.parts_eq], h.part_eq⟩

/-- A call that succeeds adds its contributions to those of its statement. -/
theorem Accounted.apply (h : s.Accounted cs) {c : Call} {resolve : Resolver} {change : Change}
    (hchange : c.change resolve s.settings = .ok change) :
    (change.apply s).Accounted (cs ++ c.contributions) := by
  cases c with
  | attach filter connective condition =>
    obtain ⟨p, hp, -, rfl⟩ := Call.exists_of_change_attach hchange
    rw [Call.contributions_attach filter connective hp]
    have hbind := h.bindAll (.conditions filter) p.operands
    exact ⟨by simpa [Change.apply] using hbind.bound_eq,
      by simpa [Change.apply] using hbind.parts_eq, by simpa [Change.apply] using hbind.part_eq⟩
  | parameter value =>
    cases hchange
    exact h.bindAll .text [value]
  | orderBy expr ascending =>
    obtain ⟨item, -, rfl⟩ := Result.map_eq_ok.1 hchange
    change Accounted _ (cs ++ [])
    rw [List.append_nil]
    exact ⟨h.bound_eq, h.parts_eq, h.part_eq⟩
  | columns | distinct | source | join | groupBy | limit | union =>
    cases hchange
    change Accounted _ (cs ++ [])
    rw [List.append_nil]
    exact ⟨h.bound_eq, h.parts_eq, h.part_eq⟩

/-- The bound values of a part are those that were contributed to it. -/
theorem Accounted.boundIn_eq (h : s.Accounted cs) (part : Part) :
    s.boundIn part = Contribution.valuesFor part cs := by
  rw [boundIn, h.bound_eq, h.parts_eq]
  clear h
  induction cs with
  | nil => rfl
  | cons c rest ih =>
    rw [List.flatMap_cons, List.flatMap_cons, List.zip_append (by simp), zip_replicate,
      List.filter_append, List.map_append, ih]
    by_cases hpart : c.part = part
    · simp [Contribution.valuesFor, List.filter_map, Function.comp_def, hpart]
    · simp [Contribution.valuesFor, List.filter_map, Function.comp_def, hpart]

/-- The values that were contributed to the text stand first, then those that were contributed to
the conditions on rows, then those that were contributed to the conditions on groups. -/
theorem Accounted.boundInOrder_eq (h : s.Accounted cs) :
    s.boundInOrder = Contribution.valuesFor .text cs ++
      Contribution.valuesFor (.conditions .rows) cs ++
      Contribution.valuesFor (.conditions .groups) cs := by
  rw [Statement.boundInOrder_eq, h.boundIn_eq, h.boundIn_eq, h.boundIn_eq]

end Statement

end BoundQuery
