import BoundQuery.Proofs.Statement.Change
import BoundQuery.Statement.Compiled

/-!
# What a change leaves alone

Every change goes to one slot of a statement and leaves the other slots alone, and what it makes of
its own slot depends on nothing else. So after any changes, a slot has what the changes of that
slot alone would have made of it. What is written and compiled, and which values are bound, depends
on the slots only.

Grouping is in one slot with the columns, since columns may be grouped by. The conditions of a
section are in one slot with the values bound to them.

## Main definitions

* `Slot`, `Change.slot`, `Call.slot`: the slots, and where changes and calls go.
* `Slot.Same`: two statements have the same in a slot.

## Main statements

* `Slot.same_of_filter_eq`: changes that are the same for every slot make the same of every slot.
* `Statement.text_eq_of_same`, `Statement.compileFrom_eq_of_same`, `Statement.bound_perm_of_same`:
  what statements have in common that have the same in every slot.
-/

namespace BoundQuery

/-- The pieces of a statement that changes may go to. -/
inductive Slot where
  | columns
  | sources
  | joins
  | conditions (filter : Filter)
  | orderings
  | limit
  | branches
  | parameters
  | distinct
deriving DecidableEq

/-- The slot that a change goes to. -/
def Change.slot : Change → Slot
  | columns .. | groupBy _ => .columns
  | distinct => .distinct
  | source _ => .sources
  | join _ => .joins
  | condition filter _ => .conditions filter
  | parameter _ => .parameters
  | orderBy _ => .orderings
  | limit .. => .limit
  | union _ => .branches

/-- The slot that a call goes to. -/
def Call.slot : Call → Slot
  | columns .. | groupBy _ => .columns
  | distinct => .distinct
  | source _ => .sources
  | join .. => .joins
  | attach filter .. => .conditions filter
  | parameter _ => .parameters
  | orderBy .. => .orderings
  | limit .. => .limit
  | union _ => .branches

/-- The change that a call makes goes where the call goes. -/
theorem Call.slot_change {c : Call} {resolve : Resolver} {settings : Settings} {change : Change}
    (h : c.change resolve settings = .ok change) : change.slot = c.slot := by
  cases c with
  | attach filter connective condition =>
    obtain ⟨p, -, -, rfl⟩ := exists_of_change_attach h
    rfl
  | orderBy expr ascending =>
    obtain ⟨item, -, rfl⟩ := Result.map_eq_ok.1 h
    rfl
  | columns names grouped =>
    rw [← Except.ok.inj h]
    rfl
  | distinct | source | join | parameter | groupBy | limit | union =>
    cases h
    rfl

namespace Slot

/-- Two statements have the same in a slot. -/
def Same (s t : Statement) : Slot → Prop
  | columns => s.columns = t.columns ∧ s.groupings = t.groupings
  | sources => s.sources = t.sources
  | joins => s.joins = t.joins
  | conditions filter =>
    s.conditions filter = t.conditions filter ∧
      s.boundIn (.conditions filter) = t.boundIn (.conditions filter)
  | orderings => s.orderings = t.orderings
  | limit => s.limit = t.limit ∧ s.offset = t.offset
  | branches => s.branches = t.branches
  | parameters => s.boundIn .text = t.boundIn .text
  | distinct => s.distinct = t.distinct

variable {s t u : Statement} {slot : Slot}

theorem Same.refl (s : Statement) (slot : Slot) : Same s s slot := by
  cases slot with
  | columns | conditions | limit => exact ⟨rfl, rfl⟩
  | _ => rfl

theorem Same.symm (h : Same s t slot) : Same t s slot := by
  cases slot with
  | columns | conditions | limit => exact ⟨h.1.symm, h.2.symm⟩
  | _ => exact Eq.symm h

theorem Same.trans (hst : Same s t slot) (htu : Same t u slot) : Same s u slot := by
  cases slot with
  | columns | conditions | limit => exact ⟨hst.1.trans htu.1, hst.2.trans htu.2⟩
  | _ => exact Eq.trans hst htu

/-- A change leaves every other slot alone. -/
theorem same_apply_of_ne (hs : s.Balanced) {change : Change} (h : change.slot ≠ slot) :
    Same (change.apply s) s slot := by
  cases change with
  | condition filter c =>
    have hbound : ∀ part, Part.conditions filter ≠ part →
        (Change.apply s (.condition filter c)).boundIn part = s.boundIn part := by
      intro part hpart
      rw [Statement.boundIn_apply hs, if_neg hpart, List.append_nil]
    cases slot with
    | conditions other =>
      have hother : filter ≠ other := by
        rintro rfl
        exact h rfl
      refine ⟨?_, hbound _ ?_⟩
      · rw [Statement.conditions_apply, if_neg hother, List.append_nil]
      · rintro ⟨⟩
        exact hother rfl
    | parameters => exact hbound .text (by rintro ⟨⟩)
    | columns | limit => cases filter <;> exact ⟨rfl, rfl⟩
    | _ => cases filter <;> rfl
  | parameter value =>
    have hbound : ∀ part, Part.text ≠ part →
        (Change.apply s (.parameter value)).boundIn part = s.boundIn part := by
      intro part hpart
      rw [Change.apply, Statement.boundIn_bindAll hs, if_neg hpart, List.append_nil]
    cases slot with
    | conditions other => exact ⟨rfl, hbound _ (by rintro ⟨⟩)⟩
    | parameters => exact absurd rfl h
    | columns | limit => exact ⟨rfl, rfl⟩
    | _ => rfl
  | _ =>
    cases slot with
    | columns | conditions | limit => first | exact ⟨rfl, rfl⟩ | exact absurd rfl h
    | _ => first | rfl | exact absurd rfl h

/-- What a change makes of a slot depends on that slot only. -/
theorem Same.apply (h : Same s t slot) (hs : s.Balanced) (ht : t.Balanced) (change : Change) :
    Same (change.apply s) (change.apply t) slot := by
  by_cases hslot : change.slot = slot
  · subst hslot
    cases change with
    | columns names grouped =>
      exact ⟨congrArg (· ++ names) h.1, congrArg (· ++ _) h.2⟩
    | groupBy expr => exact ⟨h.1, congrArg (· ++ [expr]) h.2⟩
    | condition filter c =>
      refine ⟨?_, ?_⟩
      · rw [Statement.conditions_apply, Statement.conditions_apply, h.1]
      · rw [Statement.boundIn_apply hs, Statement.boundIn_apply ht, h.2]
    | parameter value =>
      have h' : s.boundIn .text = t.boundIn .text := h
      change (s.bindAll .text [value]).boundIn .text = (t.bindAll .text [value]).boundIn .text
      rw [Statement.boundIn_bindAll hs, Statement.boundIn_bindAll ht, h']
    | source table => exact congrArg (· ++ [table]) h
    | join j => exact congrArg (· ++ [j]) h
    | orderBy item => exact congrArg (· ++ [item]) h
    | union branch => exact congrArg (· ++ [branch]) h
    | limit count passed => exact ⟨rfl, rfl⟩
    | distinct => rfl
  · exact ((same_apply_of_ne hs hslot).trans h).trans (same_apply_of_ne ht hslot).symm

/-- After some changes, a slot has what the changes that go there make of it. -/
theorem Same.foldl_filter (h : Same s t slot) (hs : s.Balanced) (ht : t.Balanced)
    (changes : List Change) :
    Same (changes.foldl Change.apply s)
      ((changes.filter (·.slot = slot)).foldl Change.apply t) slot := by
  induction changes generalizing s t with
  | nil => exact h
  | cons change rest ih =>
    by_cases hslot : change.slot = slot
    · rw [List.filter_cons_of_pos (by simpa using hslot)]
      exact ih (h.apply hs ht change) (hs.apply change) (ht.apply change)
    · rw [List.filter_cons_of_neg (by simpa using hslot)]
      exact ih ((same_apply_of_ne hs hslot).trans h) (hs.apply change) ht

/-- Changes that are the same for every slot make the same of every slot. -/
theorem same_of_filter_eq (hs : s.Balanced) {changes others : List Change}
    (h : ∀ slot, changes.filter (·.slot = slot) = others.filter (·.slot = slot)) (slot : Slot) :
    Same (changes.foldl Change.apply s) (others.foldl Change.apply s) slot := by
  have hchanges := (Same.refl s slot).foldl_filter hs hs changes
  have hothers := (Same.refl s slot).foldl_filter hs hs others
  rw [h slot] at hchanges
  exact hchanges.trans hothers.symm

end Slot

namespace Statement

variable {s t : Statement}

theorem Balanced.foldl (hs : s.Balanced) (changes : List Change) :
    (changes.foldl Change.apply s).Balanced := by
  induction changes generalizing s with
  | nil => exact hs
  | cons change rest ih => exact ih (hs.apply change)

@[simp] theorem label_foldl (s : Statement) (changes : List Change) :
    (changes.foldl Change.apply s).label = s.label := by
  induction changes generalizing s with
  | nil => rfl
  | cons change rest ih => rw [List.foldl_cons, ih, label_apply]

@[simp] theorem settings_foldl (s : Statement) (changes : List Change) :
    (changes.foldl Change.apply s).settings = s.settings := by
  induction changes generalizing s with
  | nil => rfl
  | cons change rest ih => rw [List.foldl_cons, ih, settings_apply]

/-- The text of a statement depends on its slots and its label. -/
theorem text_eq_of_same (h : ∀ slot, Slot.Same s t slot) (hlabel : s.label = t.label)
    (resolve : Resolver) (variant : Variant) : s.text resolve variant = t.text resolve variant := by
  have hcolumns : s.columns = t.columns := (h .columns).1
  have hgroupings : s.groupings = t.groupings := (h .columns).2
  have hsources : s.sources = t.sources := h .sources
  have hjoins : s.joins = t.joins := h .joins
  have hrows : s.rowConditions = t.rowConditions := (h (.conditions .rows)).1
  have hgroups : s.groupConditions = t.groupConditions := (h (.conditions .groups)).1
  have horderings : s.orderings = t.orderings := h .orderings
  have hlimit : s.limit = t.limit := (h .limit).1
  have hoffset : s.offset = t.offset := (h .limit).2
  have hbranches : s.branches = t.branches := h .branches
  have hdistinct : s.distinct = t.distinct := h .distinct
  simp only [text, body, hcolumns, hgroupings, hsources, hjoins, hrows, hgroups, horderings, hlimit,
    hoffset, hbranches, hdistinct, hlabel]

theorem boundInOrder_eq_of_same (h : ∀ slot, Slot.Same s t slot) :
    s.boundInOrder = t.boundInOrder := by
  have htext : s.boundIn .text = t.boundIn .text := h .parameters
  rw [boundInOrder_eq, boundInOrder_eq, htext, (h (.conditions .rows)).2,
    (h (.conditions .groups)).2]

/-- A statement compiled depends on its slots, beside its text. -/
theorem compileFrom_eq_of_same (h : ∀ slot, Slot.Same s t slot)
    (compile : Ref → Except Failure Compiled) (text : Except Failure String) :
    s.compileFrom compile text = t.compileFrom compile text := by
  have hcolumns : s.columns = t.columns := (h .columns).1
  have hbranches : s.branches = t.branches := h .branches
  simp only [compileFrom, subselects, hcolumns, hbranches, boundInOrder_eq_of_same h]

/-- Balanced statements with the same slots have the same bound values, in some order. -/
theorem bound_perm_of_same (h : ∀ slot, Slot.Same s t slot) (hs : s.Balanced) (ht : t.Balanced) :
    s.bound.Perm t.bound := by
  have hperm := (boundInOrder_perm hs).symm
  rw [boundInOrder_eq_of_same h] at hperm
  exact hperm.trans (boundInOrder_perm ht)

end Statement

end BoundQuery
