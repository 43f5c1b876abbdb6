import BoundQuery.Proofs.Statement.Contributions
import BoundQuery.Proofs.Store.Compiled
import BoundQuery.Proofs.Store.Occurrences
import BoundQuery.Proofs.Store.Reachable
import BoundQuery.Proofs.Store.Session

/-!
# A ledger of contributions

While actions form a store, a ledger can be kept of what was contributed to each statement. A
statement starts without contributions. A call that succeeds enters what it contributes, a copy
takes over the entries of its statement, and an action that fails enters nothing. After any actions
the bound values of each statement are those in the ledger, and the statement compiled has them part
by part.

## Main definitions

* `Store.record`: the ledger after an action that succeeds.
* `Store.Recorded`: a store with its ledger.

## Main statements

* `Store.Recorded.accounted`: the bound values of each statement are those in the ledger.
* `Store.bound_values_recorded`: in every reachable store, and what is compiled.
-/

namespace BoundQuery

/-- A change in one place of two lists that are related element by element. -/
theorem forall₂_set_modify {α β : Type} {R : α → β → Prop} {as : List α} {bs : List β}
    (h : List.Forall₂ R as bs) {i : Nat} {a : α} {f : β → β}
    (hR : ∀ a' b, as[i]? = some a' → R a' b → R a (f b)) :
    List.Forall₂ R (as.set i a) (bs.modify i f) := by
  induction h generalizing i with
  | nil => cases i <;> exact .nil
  | cons hab hrest ih =>
    cases i with
    | zero => exact .cons (hR _ _ rfl hab) hrest
    | succ i => exact .cons hab (ih hR)

theorem exists_getElem?_of_forall₂ {α β : Type} {R : α → β → Prop} {as : List α} {bs : List β}
    (h : List.Forall₂ R as bs) {i : Nat} {a : α} (ha : as[i]? = some a) :
    ∃ b, bs[i]? = some b ∧ R a b := by
  induction h generalizing i with
  | nil => cases ha
  | @cons a' b _ _ hab _ ih =>
    cases i with
    | zero =>
      obtain rfl : a' = a := Option.some.inj ha
      exact ⟨b, rfl, hab⟩
    | succ i => exact ih ha

namespace Store

/-- The ledger after an action that succeeds: a list of contributions for each statement. -/
def record (store : Store) (ledger : List (List Contribution)) :
    Action → List (List Contribution)
  | .query .. | .subselect .. => ledger ++ [[]]
  | .call r c => ledger.modify r.index (· ++ c.contributions)
  | .clone r => ledger ++ (store.occurrences r).map fun q => ledger.getD q.index []

/-- Some actions lead to a store, each of which hands over statements that are there, and those that
succeed lead to a ledger. -/
inductive Recorded : Store → List (List Contribution) → Prop where
  | empty : Recorded empty []
  | succeed {store : Store} {ledger : List (List Contribution)} {a : Action} {q : Ref}
      (h : Recorded store ledger) (ha : ∀ q ∈ a.shown, q.index < store.size)
      (hresult : ((perform a).run store).result = .ok q) :
      Recorded ((perform a).run store).state (store.record ledger a)
  | fail {store : Store} {ledger : List (List Contribution)} {a : Action} {failure : Failure}
      (h : Recorded store ledger) (ha : ∀ q ∈ a.shown, q.index < store.size)
      (hresult : ((perform a).run store).result = .error failure) :
      Recorded ((perform a).run store).state ledger

variable {store : Store} {ledger : List (List Contribution)}

theorem Recorded.reachable (h : store.Recorded ledger) : store.Reachable := by
  induction h with
  | empty => exact .empty
  | succeed _ ha _ ih => exact ih.perform ha
  | fail _ ha _ ih => exact ih.perform ha

/-- Every reachable store has a ledger. -/
theorem Reachable.exists_recorded (h : store.Reachable) : ∃ ledger, store.Recorded ledger := by
  induction h with
  | empty => exact ⟨[], .empty⟩
  | @perform store a _ ha ih =>
    obtain ⟨ledger, hledger⟩ := ih
    rcases hresult : ((Store.perform a).run store).result with failure | q
    · exact ⟨ledger, hledger.fail ha hresult⟩
    · exact ⟨store.record ledger a, hledger.succeed ha hresult⟩

/-- An action that succeeds makes the same of the bound values as of the ledger. -/
theorem accounted_record (hclosed : store.Closed)
    (h : List.Forall₂ Statement.Accounted store.statements ledger) {a : Action} {q : Ref}
    (hresult : ((perform a).run store).result = .ok q) :
    List.Forall₂ Statement.Accounted ((perform a).run store).state.statements
      (store.record ledger a) := by
  cases a with
  | query source settings =>
    exact List.rel_append h (.cons (Statement.accounted_ofSource source settings) .nil)
  | subselect label settings =>
    exact List.rel_append h (.cons (Statement.accounted_blank label settings) .nil)
  | call r c =>
    rw [result_perform_call] at hresult
    rw [state_perform_call]
    cases hs : store.get? r with
    | none =>
      simp only [call, hs] at hresult
      cases hresult
    | some s =>
      obtain ⟨cs, -, hcs⟩ := exists_getElem?_of_forall₂ h hs
      rw [result_call_of_get? hs, Call.result_perform] at hresult
      rw [state_call_of_get? hs, Call.state_perform _ _ hcs.balanced]
      rcases hchange : c.change store.text s.settings with failure | change
      · rw [hchange] at hresult
        cases hresult
      · refine forall₂_set_modify h ?_
        intro s' cs hs' hcs
        obtain rfl : s = s' := Option.some.inj (hs.symm.trans hs')
        exact hcs.apply hchange
  | clone r =>
    obtain ⟨⟨added, hadded, hcopies⟩, -⟩ := adds_clone hclosed hresult
    change List.Forall₂ _ ((clone r).run store).state.statements _
    rw [hadded]
    refine List.rel_append h ?_
    rw [List.forall₂_map_right_iff]
    refine hcopies.flip.imp ?_
    rintro copy q ⟨s, columns, branches, hs, rfl⟩
    obtain ⟨cs, hget, hcs⟩ := exists_getElem?_of_forall₂ h hs
    rw [List.getD_eq_getElem?_getD, hget]
    exact hcs.copy columns branches

/-- The bound values of each statement are those that the ledger has for it. -/
theorem Recorded.accounted (h : store.Recorded ledger) :
    List.Forall₂ Statement.Accounted store.statements ledger := by
  induction h with
  | empty => exact .nil
  | succeed hstore _ hresult ih => exact accounted_record hstore.reachable.closed ih hresult
  | fail hstore _ hresult ih =>
    rw [state_perform_of_error (fun s hs => hstore.reachable.balanced hs) hresult]
    exact ih

/-- In every reachable store, whatever actions led to it, a statement has a part for each bound value
and is turned to its text. Its bound values are its contributions in the order of the calls. What
it compiles to has them between the values of its subselects and those of its branches: first those
of the text, then those of the conditions on rows, then those of the conditions on groups, each in
the order of the calls, and so none is lost or doubled. -/
theorem bound_values_recorded (hreachable : store.Reachable) :
    (∃ ledger, store.Recorded ledger) ∧
    ∀ ledger, store.Recorded ledger → ∀ r s, store.get? r = some s →
      ∃ cs, ledger[r.index]? = some cs ∧
        s.parts.length = s.bound.length ∧ s.part = .text ∧
        s.parts = (cs.flatMap fun c => List.replicate c.values.length c.part) ∧
        s.bound = cs.flatMap (·.values) ∧
        s.boundInOrder = Contribution.valuesFor .text cs ++
          Contribution.valuesFor (.conditions .rows) cs ++
          Contribution.valuesFor (.conditions .groups) cs ∧
        s.boundInOrder.Perm s.bound ∧
        ∀ c, store.compile r = .ok c → ∃ columns branches,
          s.subselects.mapM store.compile = .ok columns ∧
          (s.branches.mapM fun v => do store.compile (← v.branch "build")) = .ok branches ∧
          c.params = columns.flatMap (·.params) ++ s.boundInOrder ++
            branches.flatMap (·.params) := by
  refine ⟨hreachable.exists_recorded, ?_⟩
  intro ledger hledger r s hs
  obtain ⟨cs, hget, hcs⟩ := exists_getElem?_of_forall₂ hledger.accounted hs
  have hbalanced := hcs.balanced
  refine ⟨cs, hget, hbalanced.length_parts, hcs.part_eq, hcs.parts_eq, hcs.bound_eq,
    hcs.boundInOrder_eq, Statement.boundInOrder_perm hbalanced, ?_⟩
  intro c hc
  obtain ⟨s', columns, branches, hs', hcolumns, hbranches, -, hparams⟩ := compile_eq_ok hc
  obtain rfl : s = s' := Option.some.inj (hs.symm.trans hs')
  exact ⟨columns, branches, hcolumns, hbranches, hparams⟩

/-- A subselect with a condition; a query that has it as a column, with a condition on groups, a
value for its text and a condition on rows; and copies of both, of which that of the query has
another value. -/
def audited : Store :=
  let settings : Settings := ⟨.reject, false⟩
  let subselect : Statement :=
    { Statement.blank (.text "s") settings with
      rowConditions := [⟨.and, .comparison .equal "a" (.int 1)⟩]
      bound := [.int 1]
      parts := [.conditions .rows] }
  let query : Statement :=
    { Statement.ofSource (.text "t") settings with
      columns := [.statement ⟨.subselect, 0⟩]
      groupConditions := [⟨.and, .comparison .equal "b" (.int 2)⟩]
      rowConditions := [⟨.or, .between "c" (.int 3) (.int 4)⟩]
      bound := [.int 2, .text "p", .int 3, .int 4]
      parts := [.conditions .groups, .text, .conditions .rows, .conditions .rows] }
  ⟨[subselect, query, subselect,
    { query with
      columns := [.statement ⟨.subselect, 2⟩]
      bound := query.bound ++ [.text "q"]
      parts := query.parts ++ [.text] }]⟩

/-- What was contributed to its statements. -/
def auditedLedger : List (List Contribution) :=
  let subselect : List Contribution := [⟨.conditions .rows, [.int 1]⟩]
  let query : List Contribution :=
    [⟨.conditions .groups, [.int 2]⟩, ⟨.text, [.text "p"]⟩,
      ⟨.conditions .rows, [.int 3, .int 4]⟩]
  [subselect, query, subselect, query ++ [⟨.text, [.text "q"]⟩]]

/-- On the way to the store, a condition was refused after one of its values was bound. -/
theorem recorded_audited : audited.Recorded auditedLedger := by
  have h := Recorded.empty.succeed (a := .subselect (.text "s") ⟨.reject, false⟩) (by decide) rfl
  have h := h.succeed (a := .call ⟨.subselect, 0⟩
    (.attach .rows .and (.predicate (.comparison .equal "a" (.int 1))))) (by decide) rfl
  have h := h.succeed (a := .query (.text "t") ⟨.reject, false⟩) (by decide) rfl
  have h := h.succeed (a := .call ⟨.query, 1⟩
    (.attach .groups .and (.predicate (.comparison .equal "b" (.int 2))))) (by decide) rfl
  have h := h.succeed (a := .call ⟨.query, 1⟩ (.parameter (.text "p"))) (by decide) rfl
  have h := h.fail (a := .call ⟨.query, 1⟩ (.attach .rows .and
    (.predicate (.junction .and (.comparison .equal "c" (.int 9)) [.isIn "d" []])))) (by decide) rfl
  have h := h.succeed (a := .call ⟨.query, 1⟩
    (.attach .rows .or (.predicate (.between "c" (.int 3) (.int 4))))) (by decide) rfl
  have h := h.succeed (a := .call ⟨.query, 1⟩
    (.columns [.statement ⟨.subselect, 0⟩] .null)) (by decide) rfl
  have h := h.succeed (a := .clone ⟨.query, 1⟩) (by decide) rfl
  exact h.succeed (a := .call ⟨.query, 3⟩ (.parameter (.text "q"))) (by decide) rfl

/-- The copy of the query compiles to the value of the copied subselect and to its own values, among
which the one that was bound last comes second. -/
theorem bound_values_recorded_audited :
    audited.Reachable ∧ audited.Recorded auditedLedger ∧
      ∃ s, audited.get? ⟨.query, 3⟩ = some s ∧
        s.bound = [.int 2, .text "p", .int 3, .int 4, .text "q"] ∧
        s.boundInOrder = [.text "p", .text "q", .int 3, .int 4, .int 2] ∧
        audited.compile ⟨.query, 3⟩ =
          .ok ⟨"SELECT (SELECT * WHERE a = ?) as s FROM t WHERE c BETWEEN ? AND ? HAVING b = ?",
            [.int 1, .text "p", .text "q", .int 3, .int 4, .int 2]⟩ := by
  have hreachable := recorded_audited.reachable
  obtain ⟨cs, hcs, -, -, -, hbound, horder, -⟩ :=
    (bound_values_recorded hreachable).2 auditedLedger recorded_audited ⟨.query, 3⟩ _ rfl
  cases hcs
  refine ⟨hreachable, recorded_audited, _, rfl, hbound, horder, ?_⟩
  change audited.compileWithin 5 ⟨.query, 3⟩ = _
  simp only [compileWithin, Statement.compileFrom, Statement.boundInOrder_eq]
  rfl

end Store

end BoundQuery
