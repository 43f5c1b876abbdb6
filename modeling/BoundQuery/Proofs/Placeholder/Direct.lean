import BoundQuery.Proofs.Placeholder.Meant

/-!
# Values that are bound directly

What a statement of a store means, with the subselects among its columns and its branches supplied
in turn, is what its text should become when it is given the values that it compiles to. There is
one value for every placeholder, whatever was done to the statements before. But the values of
subselects come before those that are bound directly, whatever the order of the columns. So each
value stands for the placeholder that it is meant for where no column with a placeholder of its own
comes before a subselect that binds a value; and otherwise it need not.

## Main statements

* `Store.meant_after`: the values of a compiled statement are those that it means, in some order;
  and where subselects come first, they fill its text.
* `Store.meant_rawFirst`: a statement whose values do not.
-/

namespace BoundQuery.Store

/-- The values bound to a section of conditions are the operands of its conditions. -/
theorem boundIn_conditions_after (actions : List Action) {s : Statement}
    (hs : s ∈ (empty.after actions).statements) (filter : Filter) :
    s.boundIn (.conditions filter) = (s.conditions filter).flatMap (·.predicate.operands) := by
  have hkept : Kept (fun _ => True) fun s : Statement => ∀ filter,
      s.boundIn (.conditions filter) = (s.conditions filter).flatMap (·.predicate.operands) := by
    refine ⟨?_, ?_, ?_, ?_⟩
    · rintro source settings - (_ | _) <;> rfl
    · rintro label settings - (_ | _) <;> rfl
    · intro r c resolve s change _ hs hoperands hchange filter
      cases change with
      | condition section' c =>
        rw [Statement.boundIn_apply hs, Statement.conditions_apply, hoperands,
          List.flatMap_append]
        by_cases hfilter : section' = filter
        · simp [hfilter]
        · simp [hfilter]
      | parameter value =>
        have hbound := Statement.boundIn_bindAll hs .text (.conditions filter) [value]
        rw [if_neg (by simp), List.append_nil] at hbound
        cases filter <;> exact hbound.trans (hoperands _)
      | columns | distinct | source | join | groupBy | orderBy | limit | union =>
        cases filter <;> exact hoperands _
    · rintro s columns branches hoperands - - (_ | _) <;> exact hoperands _
  exact (forall_after hkept (fun _ _ => trivial) s hs).2 filter

/-- After any actions, let a statement and all that it takes in be supplied with a directly bound
value for each placeholder in their columns and sources. If it compiles, it has one value for every
placeholder of its text, and these are the values that it means, though perhaps in another order.
And if no column with a placeholder comes before a subselect that binds a value, there or in what it
takes in, each value stands for the placeholder that it is meant for. -/
theorem meant_after (actions : List Action) {r : Ref} {c : Compiled}
    (hs : (empty.after actions).AllFrom Statement.Supplied r.index)
    (hc : (empty.after actions).compile r = .ok c) :
    c.sql.toList.count '?' = c.params.length ∧
      (∃ ts, (empty.after actions).meant r = .ok ts ∧ Reads ts c.sql ∧
        (values ts).Perm c.params) ∧
      ((empty.after actions).AllFrom (empty.after actions).SubselectsFirst r.index →
        (empty.after actions).meant r = .ok (fill c.sql.toList c.params)) := by
  obtain ⟨ts, hts, herase⟩ := erases_meantWithin _ hs c.sql (text_of_compile hc)
  have hreads : Reads ts c.sql :=
    ⟨herase, openMarks_eq_zero_iff.1 (openMarks_meantWithin _ hs hts)⟩
  have hagree := agree_meantWithin (fun s hs => boundIn_conditions_after actions hs) _ _ hs hts hc
  refine ⟨hreads.count_eq.trans hagree.perm.length_eq, ⟨ts, hts, hreads, hagree.perm⟩, ?_⟩
  intro hfirst
  rw [← hagree.eq hfirst, hreads.fill_eq]
  exact hts

/-! ## Both orders of columns -/

/-- A column with a placeholder of its own, and a subselect. -/
def mixedColumns (rawFirst : Bool) : List Value :=
  if rawFirst then [.text "f(?)", .statement ⟨.subselect, 1⟩]
  else [.statement ⟨.subselect, 1⟩, .text "f(?)"]

/-- A query of such columns that binds a value directly; the subselect has a condition. -/
def mixed (rawFirst : Bool) : List Action :=
  [.query .null .default, .subselect (.text "s") .default,
    .call ⟨.subselect, 1⟩ (.attach .rows .and (.predicate (.comparison .equal "a" (.int 1)))),
    .call ⟨.query, 0⟩ (.columns (mixedColumns rawFirst) .null),
    .call ⟨.query, 0⟩ (.parameter (.int 2))]

/-- The query. -/
def mixedQuery (rawFirst : Bool) : Statement :=
  { Statement.blank .null .default with
    columns := mixedColumns rawFirst
    bound := [.int 2]
    parts := [.text] }

/-- The subselect. -/
def mixedSubselect : Statement :=
  { Statement.blank (.text "s") .default with
    rowConditions := [⟨.and, .comparison .equal "a" (.int 1)⟩]
    bound := [.int 1]
    parts := [.conditions .rows] }

theorem statements_mixed (rawFirst : Bool) :
    (empty.after (mixed rawFirst)).statements = [mixedQuery rawFirst, mixedSubselect] := by
  cases rawFirst <;> rfl

theorem supplied_mixed (rawFirst : Bool) :
    (empty.after (mixed rawFirst)).AllFrom Statement.Supplied 0 := by
  have hcolumns : ∀ v ∈ mixedColumns rawFirst, v.IsColumn := by
    cases rawFirst <;>
      simp [mixedColumns, Value.IsColumn, Value.text?, Value.subselect?]
  have hlabel : (Value.text "s").Plain := ⟨"s", rfl, by decide⟩
  have hcondition : (Predicate.comparison .equal "a" (Value.int 1)).Plain := by
    intro e he
    rw [List.mem_singleton.1 he]
    decide
  refine .of_forall ?_ 0
  rw [statements_mixed, List.forall_mem_cons, List.forall_mem_singleton]
  constructor
  · have hplain := Statement.plain_blank (.inl rfl) .default
    exact { hplain with columns := hcolumns, supplied := by cases rawFirst <;> rfl }
  · have hplain := Statement.plain_blank (.inr hlabel) .default
    have hnone : ∀ v ∈ mixedSubselect.columns, v.IsColumn := by
      intro v hv
      cases hv
    refine { hplain with columns := hnone, conditions := ?_, supplied := rfl }
    rintro (_ | _) c hc
    · rw [List.mem_singleton.1 hc]
      exact hcondition
    · cases hc

/-- What the query compiles to with the subselect in the first place. -/
def subselectFirstCompiled : Compiled :=
  ⟨"SELECT (SELECT * WHERE a = ?) as s, f(?)", [.int 1, .int 2]⟩

/-- What it compiles to with the subselect in the last place: the values stay in their places. -/
def rawFirstCompiled : Compiled :=
  ⟨"SELECT f(?), (SELECT * WHERE a = ?) as s", [.int 1, .int 2]⟩

theorem compile_mixed (rawFirst : Bool) :
    (empty.after (mixed rawFirst)).compile ⟨.query, 0⟩ =
      .ok (if rawFirst then rawFirstCompiled else subselectFirstCompiled) := by
  change (empty.after (mixed rawFirst)).compileWithin 3 ⟨.query, 0⟩ = _
  cases rawFirst <;>
    simp only [compileWithin, Statement.compileFrom, Statement.boundInOrder_eq] <;> rfl

/-- With the subselect in the first place, each value stands for its placeholder. -/
theorem meant_subselectFirst :
    (empty.after (mixed false)).AllFrom Statement.Supplied 0 ∧
      (empty.after (mixed false)).compile ⟨.query, 0⟩ = .ok subselectFirstCompiled ∧
      (empty.after (mixed false)).meant ⟨.query, 0⟩ =
        .ok (fill subselectFirstCompiled.sql.toList subselectFirstCompiled.params) := by
  refine ⟨supplied_mixed false, compile_mixed false, ?_⟩
  refine (meant_after (mixed false) (supplied_mixed false) (compile_mixed false)).2.2 ?_
  refine .of_forall ?_ 0
  rw [statements_mixed, List.forall_mem_cons, List.forall_mem_singleton]
  refine ⟨List.pairwise_pair.2 fun hpos => ?_, .nil⟩
  cases hpos

/-- With the subselect in the last place, its value and the one that is bound directly change
places. -/
theorem meant_rawFirst :
    (empty.after (mixed true)).AllFrom Statement.Supplied 0 ∧
      (empty.after (mixed true)).compile ⟨.query, 0⟩ = .ok rawFirstCompiled ∧
      (empty.after (mixed true)).meant ⟨.query, 0⟩ =
        .ok (fill rawFirstCompiled.sql.toList [.int 2, .int 1]) ∧
      (empty.after (mixed true)).meant ⟨.query, 0⟩ ≠
        .ok (fill rawFirstCompiled.sql.toList rawFirstCompiled.params) := by
  have hmeant : (empty.after (mixed true)).meant ⟨.query, 0⟩ =
      .ok (fill rawFirstCompiled.sql.toList [.int 2, .int 1]) := by
    rfl
  refine ⟨supplied_mixed true, compile_mixed true, hmeant, ?_⟩
  rw [hmeant]
  intro heq
  have hvalues : [Value.int 2, .int 1] = [.int 1, .int 2] :=
    congrArg values (Except.ok.inj heq)
  simp at hvalues

end BoundQuery.Store
