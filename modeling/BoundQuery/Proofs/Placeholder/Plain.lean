import BoundQuery.Proofs.Store.Actions
import BoundQuery.Proofs.Text.Unmarked
import BoundQuery.Proofs.Placeholder.Filled

/-!
# Values that come with conditions only

A statement is plain when placeholders are written by its conditions alone: no raw text has one,
its columns are texts or subselects, and its branches are statements. Its bound values are then the
operands of its conditions, section by section. Plain actions leave plain statements, also where
calls of them fail and where statements are copied.

## Main definitions

* `Statement.Plain`: the plain statements.
* `Action.Plain`: the actions that bring no placeholder into raw text, and bind no value without a
  condition.

## Main statements

* `Statement.Plain.boundInOrder_eq`: the bound values are the operands of the conditions.
* `Statement.plain_after`: plain actions leave plain statements.
-/

namespace BoundQuery

/-- A value counts as a text without placeholders. -/
def Value.Plain (v : Value) : Prop := ∃ s, v.text? = some s ∧ BoundQuery.Unmarked s

/-- A column is a text without placeholders, or a subselect. -/
def Value.PlainColumn (v : Value) : Prop := v.Plain ∨ ∃ r, v.subselect? = some r

def Predicate.Plain {α : Type} (p : Predicate α) : Prop := ∀ e ∈ p.exprs, Unmarked e

theorem Value.Plain.unmarked {v : Value} (h : v.Plain) : v.Unmarked := by
  obtain ⟨s, hs, hunmarked⟩ := h
  intro t ht
  rw [hs] at ht
  cases ht
  exact hunmarked

/-- The display of a plain text is the same whatever the texts of statements are. -/
theorem Value.Plain.display_eq {v : Value} (h : v.Plain) :
    ∃ t, BoundQuery.Unmarked t ∧ ∀ resolve, v.display resolve = .ok t := by
  obtain ⟨s, hs, hunmarked⟩ := h
  cases v with
  | text t =>
    cases hs
    exact ⟨_, hunmarked, fun _ => rfl⟩
  | operation op =>
    cases hs
    exact ⟨_, unmarked_append.2 ⟨by decide, hunmarked⟩, fun _ => rfl⟩
  | connective c =>
    cases hs
    exact ⟨_, unmarked_append.2 ⟨by decide, hunmarked⟩, fun _ => rfl⟩
  | _ => cases hs

theorem Value.PlainColumn.unmarked {v : Value} (h : v.PlainColumn) : v.Unmarked := by
  rcases h with h | ⟨r, hr⟩
  · exact h.unmarked
  · rw [(Value.subselect?_eq_some.1 hr).1]
    intro t ht
    cases ht

/-- Placeholders are written by conditions alone, and the bound values are the operands of these. -/
structure Statement.Plain (s : Statement) : Prop where
  label : s.label = .null ∨ s.label.Plain
  columns : ∀ v ∈ s.columns, v.PlainColumn
  sources : ∀ v ∈ s.sources, v.Unmarked
  joins : ∀ j ∈ s.joins, j.source.Unmarked
  conditions : ∀ filter, ∀ c ∈ s.conditions filter, c.predicate.Plain
  groupings : ∀ v ∈ s.groupings, v.Unmarked
  orderings : ∀ v ∈ s.orderings, v.Unmarked
  branches : ∀ v ∈ s.branches, ∃ r, v = .statement r
  boundIn_text : s.boundIn .text = []
  boundIn_conditions : ∀ filter,
    s.boundIn (.conditions filter) = (s.conditions filter).flatMap (·.predicate.operands)

/-- A call brings no placeholder into raw text, and binds no value without a condition. -/
def Call.Plain : Call → Prop
  | columns names grouped => ∀ v ∈ (Statement.splitColumns names grouped).1, v.PlainColumn
  | distinct | limit _ _ => True
  | source table => table.Unmarked
  | join _ joined => joined.Unmarked
  | attach _ _ condition => ∀ p, Predicate.ofValue? condition = .ok p → p.Plain
  | parameter _ => False
  | groupBy expr => expr.Unmarked
  | orderBy expr ascending =>
    ∀ resolve item, Statement.ordering resolve expr ascending = .ok item → item.Unmarked
  | union branch => ∃ r, branch = .statement r

/-- An action brings no placeholder into raw text, and binds no value without a condition. -/
def Action.Plain : Action → Prop
  | query source _ => source.Unmarked
  | subselect label _ => label.Plain
  | call _ c => c.Plain
  | clone _ => True

theorem Call.plain_orderBy {expr : Value} (h : expr.Plain) (ascending : Value) :
    (orderBy expr ascending).Plain := by
  intro resolve item hitem
  unfold Statement.ordering at hitem
  by_cases hnull : ascending.isNull = true
  · rw [if_pos hnull] at hitem
    cases hitem
    exact h.unmarked
  · rw [if_neg hnull] at hitem
    obtain ⟨shown, hshown, hitem⟩ := Result.bind_eq_ok.1 hitem
    obtain ⟨t, hunmarked, hdisplay⟩ := h.display_eq
    rw [hdisplay] at hshown
    cases hshown
    cases hitem
    refine Value.unmarked_text (unmarked_append.2 ⟨hunmarked, ?_⟩)
    split <;> decide

namespace Statement

/-- Where all bound values came with conditions, they are the operands of these. -/
theorem boundInOrder_of_text_eq_nil {s : Statement} (htext : s.boundIn .text = [])
    (hconditions : ∀ filter,
      s.boundIn (.conditions filter) = (s.conditions filter).flatMap (·.predicate.operands)) :
    s.boundInOrder = s.rowConditions.flatMap (·.predicate.operands) ++
      s.groupConditions.flatMap (·.predicate.operands) := by
  rw [boundInOrder_eq, htext, hconditions, hconditions]
  rfl

theorem Plain.boundInOrder_eq {s : Statement} (h : s.Plain) :
    s.boundInOrder = s.rowConditions.flatMap (·.predicate.operands) ++
      s.groupConditions.flatMap (·.predicate.operands) :=
  boundInOrder_of_text_eq_nil h.boundIn_text h.boundIn_conditions

theorem plain_blank {label : Value} (h : label = .null ∨ label.Plain) (settings : Settings) :
    (blank label settings).Plain where
  label := h
  columns := by simp [blank]
  sources := by simp [blank]
  joins := by simp [blank]
  conditions := by rintro (_ | _) c hc <;> cases hc
  groupings := by simp [blank]
  orderings := by simp [blank]
  branches := by simp [blank]
  boundIn_text := rfl
  boundIn_conditions := by rintro (_ | _) <;> rfl

theorem plain_ofSource {source : Value} (h : source.Unmarked) (settings : Settings) :
    (ofSource source settings).Plain := by
  have hblank := plain_blank (.inl rfl) settings
  refine { hblank with sources := ?_ }
  intro v hv
  simp only [ofSource] at hv
  split at hv
  · cases hv
  · rw [List.mem_singleton.1 hv]
    exact h

/-- A plain condition keeps a statement plain: its operands are bound where its text is. -/
theorem Plain.condition {s : Statement} (h : s.Plain) (hs : s.Balanced) (filter : Filter)
    {c : Condition} (hc : c.predicate.Plain) : (Change.apply s (.condition filter c)).Plain := by
  let t := Change.apply s (.condition filter c)
  have hplain : ∀ other, ∀ d ∈ t.conditions other, d.predicate.Plain := by
    intro other
    rw [conditions_apply]
    by_cases hother : filter = other
    · rw [if_pos hother]
      exact List.forall_mem_append.2 ⟨h.conditions other, List.forall_mem_singleton.2 hc⟩
    · rw [if_neg hother, List.append_nil]
      exact h.conditions other
  have htext : t.boundIn .text = [] := by
    rw [boundIn_apply hs, h.boundIn_text]
    rfl
  have hoperands : ∀ other, t.boundIn (.conditions other) =
      (t.conditions other).flatMap (·.predicate.operands) := by
    intro other
    rw [boundIn_apply hs, conditions_apply, h.boundIn_conditions, List.flatMap_append]
    by_cases hother : filter = other
    · simp [hother]
    · simp [hother]
  cases filter <;>
    exact { h with conditions := hplain, boundIn_text := htext, boundIn_conditions := hoperands }

/-- Plain calls keep statements plain. -/
theorem Plain.apply {s : Statement} (h : s.Plain) (hs : s.Balanced) {c : Call} (hc : c.Plain)
    {resolve : Resolver} {settings : Settings} {change : Change}
    (hchange : c.change resolve settings = .ok change) : (change.apply s).Plain := by
  cases c with
  | columns names grouped =>
    obtain rfl : Change.columns (splitColumns names grouped).1 (splitColumns names grouped).2 =
        change := Except.ok.inj hchange
    refine { h with
      columns := List.forall_mem_append.2 ⟨h.columns, hc⟩
      groupings := List.forall_mem_append.2 ⟨h.groupings, ?_⟩ }
    intro v hv
    by_cases hgrouped : (splitColumns names grouped).2 = true
    · rw [if_pos hgrouped] at hv
      exact (hc v (List.mem_of_mem_filter hv)).unmarked
    · rw [if_neg hgrouped] at hv
      cases hv
  | distinct =>
    cases hchange
    exact { h with }
  | source table =>
    cases hchange
    exact { h with sources :=
      List.forall_mem_append.2 ⟨h.sources, List.forall_mem_singleton.2 hc⟩ }
  | join kind joined =>
    cases hchange
    exact { h with joins :=
      List.forall_mem_append.2 ⟨h.joins, List.forall_mem_singleton.2 hc⟩ }
  | attach filter connective condition =>
    obtain ⟨p, hp, -, rfl⟩ := Call.exists_of_change_attach hchange
    exact h.condition hs filter (hc p hp)
  | parameter value => exact hc.elim
  | groupBy expr =>
    cases hchange
    exact { h with groupings :=
      List.forall_mem_append.2 ⟨h.groupings, List.forall_mem_singleton.2 hc⟩ }
  | orderBy expr ascending =>
    obtain ⟨item, hitem, rfl⟩ := Result.map_eq_ok.1 hchange
    have hplain := hc _ _ hitem
    exact { h with orderings :=
      List.forall_mem_append.2 ⟨h.orderings, List.forall_mem_singleton.2 hplain⟩ }
  | limit count passed =>
    cases hchange
    exact { h with }
  | union branch =>
    cases hchange
    exact { h with branches :=
      List.forall_mem_append.2 ⟨h.branches, List.forall_mem_singleton.2 hc⟩ }

/-- Copies of plain statements are plain. -/
theorem Plain.copy {s : Statement} (h : s.Plain) {columns branches : List Value}
    (hcolumns : List.Forall₂ (CopiedColumn fun r q => q.variant = r.variant) s.columns columns)
    (hbranches : List.Forall₂ (CopiedBranch fun r q => q.variant = r.variant) s.branches branches) :
    (s.copy columns branches).Plain := by
  refine { h with columns := ?_, branches := ?_ }
  · intro v hv
    obtain ⟨u, hu, hcopied⟩ := exists_mem_of_forall₂ hcolumns hv
    rcases hcopied.eq_or_subselect with heq | hsubselect
    · rw [heq]
      exact h.columns u hu
    · exact .inr hsubselect
  · intro v hv
    obtain ⟨u, hu, r, q, hur, hvq, -⟩ := exists_mem_of_forall₂ hbranches hv
    exact ⟨q, hvq⟩

/-- Plain actions leave plain statements. -/
theorem plain_after {actions : List Action} (h : ∀ a ∈ actions, a.Plain) {s : Statement}
    (hs : s ∈ (Store.empty.after actions).statements) : s.Plain := by
  have hkept : Kept Action.Plain Plain := by
    refine ⟨?_, ?_, ?_, ?_⟩
    · intro source settings ha
      exact plain_ofSource ha settings
    · intro label settings ha
      exact plain_blank (.inr ha) settings
    · intro r c resolve s change ha hs hplain hchange
      exact hplain.apply hs ha hchange
    · intro s columns branches hplain hcolumns hbranches
      exact hplain.copy hcolumns hbranches
  exact (Store.forall_after hkept h s hs).2

end Statement

end BoundQuery
