import BoundQuery.Proofs.Placeholder.Meant

/-!
# Placeholders and their values

The filled text of a statement whose placeholders are written by conditions alone is what its text
becomes when the values of the compiled statement are put in place of the placeholders from first to
last: so each placeholder goes with the value of the very condition that wrote it, however deep
inside columns and branches. Such a statement is supplied without any directly bound values, and
what it means is its filled text.

## Main statements

* `Store.tracks_filledWithin`: the filled text of a plain statement is its text, but for values.
* `Store.carries_filledWithin`: the values of the filled text are those of the compiled statement.
* `Store.filled_after`: the values of a compiled statement fill its text.
-/

namespace BoundQuery

/-- Where there is a text, there is a filled one that reads as it. -/
def Tracks (x : Except Failure String) (filling : Filling) : Prop :=
  ∀ t, x = .ok t → ∃ ts, filling = .ok ts ∧ Reads ts t

/-- The values of a filled statement are those of the statement compiled. -/
def Carries (filling : Filling) (compiled : Except Failure Compiled) : Prop :=
  ∀ ts c, filling = .ok ts → compiled = .ok c → values ts = c.params

theorem Value.PlainColumn.isColumn {v : Value} (h : v.PlainColumn) : v.IsColumn := by
  rcases h with ⟨s, hs, -⟩ | hsubselect
  · exact .inl ⟨s, hs⟩
  · exact .inr hsubselect

namespace Statement

/-- Columns and sources of a plain statement bring no placeholders. -/
theorem Plain.not_mem_raw {s : Statement} (hs : s.Plain) : '?' ∉ s.raw := by
  simp only [raw, List.mem_append, List.mem_flatMap, not_or, not_exists, not_and]
  exact ⟨fun v hv => Value.not_mem_raw (hs.columns v hv).unmarked,
    fun v hv => Value.not_mem_raw (hs.sources v hv),
    fun j hj => Value.not_mem_raw (hs.joins j hj)⟩

/-- A plain statement needs no directly bound values. -/
theorem Plain.supplied {s : Statement} (hs : s.Plain) : s.Supplied where
  label := hs.label
  columns v hv := (hs.columns v hv).isColumn
  conditions := hs.conditions
  groupings := hs.groupings
  orderings := hs.orderings
  branches := hs.branches
  supplied := by rw [hs.boundIn_text, List.count_eq_zero.2 hs.not_mem_raw, List.length_nil]

/-- Without directly bound values, a statement means its filled text. -/
theorem meant_eq_filled {s : Statement} (h : s.boundIn .text = []) (fill : Ref → Filling)
    (variant : Variant) : s.meant fill variant = s.filled fill variant := by
  simp only [meant, h, supply_nil]
  rcases s.filled fill variant with failure | ts <;> rfl

end Statement

namespace Store

variable {store : Store}

/-- Where no value is bound directly, statements mean their filled texts. -/
theorem meantWithin_eq_filledWithin (h : ∀ s ∈ store.statements, s.boundIn .text = []) (n : Nat) :
    store.meantWithin n = store.filledWithin n := by
  induction n with
  | zero => rfl
  | succ n ih =>
    funext r
    cases hs : store.get? r with
    | none => rw [meantWithin_succ_of_none hs, filledWithin_succ_of_none hs]
    | some s =>
      rw [meantWithin_succ hs, filledWithin_succ hs, ih,
        Statement.meant_eq_filled (h s (List.mem_of_getElem? hs))]

section Plain

variable (h : ∀ s ∈ store.statements, s.Plain)

include h

theorem meantWithin_of_plain (n : Nat) : store.meantWithin n = store.filledWithin n :=
  meantWithin_eq_filledWithin (fun s hs => (h s hs).boundIn_text) n

theorem supplied_of_plain (i : Nat) : store.AllFrom Statement.Supplied i :=
  .of_forall (fun s hs => (h s hs).supplied) i

theorem subselectsFirst_of_plain (i : Nat) : store.AllFrom store.SubselectsFirst i := by
  refine .of_forall (fun s hs => List.pairwise_of_forall_mem_list fun u hu _ _ hmark => ?_) i
  exact absurd hmark (Value.not_mem_raw ((h s hs).columns u hu).unmarked)

/-- The filled text of a plain statement is its text, but for values. -/
theorem tracks_filledWithin (n : Nat) (r : Ref) :
    Tracks (store.textWithin n r) (store.filledWithin n r) := by
  intro t ht
  have hs := supplied_of_plain h r.index
  obtain ⟨ts, hts, herase⟩ := erases_meantWithin n hs t ht
  refine ⟨ts, ?_, herase, openMarks_eq_zero_iff.1 (openMarks_meantWithin n hs hts)⟩
  rw [← meantWithin_of_plain h]
  exact hts

/-- The values of the filled text of a plain statement are those of the statement compiled, however
deep either may go. -/
theorem carries_filledWithin (n m : Nat) (r : Ref) :
    Carries (store.filledWithin m r) (store.compileWithin n r) := by
  intro ts c hts hc
  rw [← meantWithin_of_plain h] at hts
  have hagree := agree_meantWithin (fun s hs => (h s hs).boundIn_conditions) n m
    (supplied_of_plain h r.index) hts hc
  exact hagree.eq (subselectsFirst_of_plain h r.index)

end Plain

/-- After any plain actions, a compiled statement has one value for every placeholder of its text,
and the values in place of the placeholders make up its filled text: each value stands where the
condition that it is an operand of has written its placeholder. -/
theorem filled_after {actions : List Action} (h : ∀ a ∈ actions, a.Plain) {r : Ref} {c : Compiled}
    (hc : (empty.after actions).compile r = .ok c) :
    c.sql.toList.count '?' = c.params.length ∧
      (empty.after actions).filled r = .ok (fill c.sql.toList c.params) := by
  have hplain : ∀ s ∈ (empty.after actions).statements, s.Plain :=
    fun s hs => Statement.plain_after h hs
  obtain ⟨ts, hts, hreads⟩ :=
    tracks_filledWithin hplain ((empty.after actions).size + 1) r c.sql (text_of_compile hc)
  have hvalues : values ts = c.params := carries_filledWithin hplain _ _ r ts c hts hc
  rw [← hvalues]
  exact ⟨hreads.count_eq, by rw [hreads.fill_eq]; exact hts⟩

/-- A condition on groups comes before one on rows, and a subselect among the columns has its
conditions last; then the query is copied. -/
def lateConditions : List Action :=
  [.query (.text "t") .default, .subselect (.text "s") .default,
    .call ⟨.query, 0⟩ (.columns [.text "a", .statement ⟨.subselect, 1⟩] .null),
    .call ⟨.query, 0⟩ (.attach .groups .and (.predicate (.comparison .greater "n" (.int 3)))),
    .call ⟨.query, 0⟩ (.attach .rows .and (.predicate (.isIn "b" [.int 1, .int 2]))),
    .call ⟨.query, 0⟩ (.orderBy (.text "a") (.bool true)),
    .call ⟨.subselect, 1⟩ (.attach .rows .and (.predicate (.nullCheck "m" true))),
    .call ⟨.subselect, 1⟩ (.attach .rows .and (.predicate (.comparison .less "m" (.int 0)))),
    .clone ⟨.query, 0⟩]

theorem plain_lateConditions : ∀ a ∈ lateConditions, a.Plain := by
  have hcondition : ∀ {q : Predicate Value}, q.Plain →
      ∀ p, Predicate.ofValue? (.predicate q) = .ok p → p.Plain := by
    intro q hq p hp
    cases hp
    exact hq
  simp only [lateConditions, List.forall_mem_cons]
  refine ⟨Value.unmarked_text (by decide), ⟨"s", rfl, by decide⟩, ?_, hcondition ?_,
    hcondition ?_, Call.plain_orderBy ⟨"a", rfl, by decide⟩ _, hcondition ?_, hcondition ?_,
    trivial, by simp⟩
  · intro v hv
    rcases List.mem_pair.1 hv with rfl | rfl
    · exact .inl ⟨"a", rfl, by decide⟩
    · exact .inr ⟨⟨.subselect, 1⟩, rfl⟩
  all_goals
    intro e he
    rw [List.mem_singleton.1 he]
    decide

/-- What the copy compiles to. -/
def lateCompiled : Compiled where
  sql := "SELECT a, (SELECT * WHERE m is not null AND m < ?) as s FROM t WHERE b in (?, ?) " ++
    "HAVING n > ? ORDER BY a ASC"
  params := [.int 0, .int 1, .int 2, .int 3]

theorem compile_lateConditions :
    (empty.after lateConditions).compile ⟨.query, 3⟩ = .ok lateCompiled := by
  change (empty.after lateConditions).compileWithin 5 ⟨.query, 3⟩ = _
  simp only [compileWithin, Statement.compileFrom, Statement.boundInOrder_eq]
  rfl

theorem filled_lateConditions :
    (∀ a ∈ lateConditions, a.Plain) ∧
      (empty.after lateConditions).compile ⟨.query, 3⟩ = .ok lateCompiled ∧
      lateCompiled.sql.toList.count '?' = lateCompiled.params.length ∧
      (empty.after lateConditions).filled ⟨.query, 3⟩ =
        .ok (fill lateCompiled.sql.toList lateCompiled.params) :=
  ⟨plain_lateConditions, compile_lateConditions,
    filled_after plain_lateConditions compile_lateConditions⟩

end Store

end BoundQuery
