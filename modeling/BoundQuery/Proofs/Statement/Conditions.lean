import BoundQuery.Proofs.Predicate.Unambiguous
import BoundQuery.Proofs.Statement.Change
import BoundQuery.Proofs.Statement.Section

/-!
# Conditions can be read off a statement

Where expressions are words, the text of a section of conditions and the values bound to it give
back which conditions were attached to it, in which order and with which connectives. All that is
lost is the connective before the first condition, which is not written, and that of groups with a
single condition.

## Main definitions

* `Predicate.contributed`: the values that a collector has from a predicate.
* `Statement.attachAll`: attaching conditions one after the other.
* `Statement.Unfiltered`: a section without conditions.

## Main statements

* `Condition.forall₂_of_chained`: conditions after their connectives are told apart by their text.
* `Statement.conditions_unambiguous`: texts and values give back predicates and conditions.
-/

namespace BoundQuery

/-- The values that an empty collector has from a predicate, where INs without values are
rendered. -/
def Predicate.contributed {α : Type} (p : Predicate α) : List α :=
  ((p.contribute : Run (Collector α) Unit).run ⟨[], .default⟩).state.values

theorem Predicate.contributed_eq {α : Type} (p : Predicate α) : p.contributed = p.operands := by
  rw [contributed, run_contribute_of_render _ _ rfl, Collector.foldl_push]
  rfl

/-! ## Texts of conditions -/

namespace Condition

/-- Two conditions are written alike: after the same connective, and in the same shape. -/
def Alike (c d : Condition) : Prop :=
  c.connective = d.connective ∧ c.predicate.leveled.shape = d.predicate.leveled.shape

theorem chained_cons_ne_nil (c : Condition) (rest : List Condition) : chained (c :: rest) ≠ "" := by
  intro h
  have hnil := congrArg String.toList h
  simp [Connective.separator] at hnil

/-- Conditions after their connectives are told apart by their text. -/
theorem forall₂_of_chained {cs ds : List Condition} (hcs : ∀ c ∈ cs, c.predicate.Worded)
    (hds : ∀ d ∈ ds, d.predicate.Worded) (h : chained cs = chained ds) :
    List.Forall₂ Alike cs ds := by
  induction cs generalizing ds with
  | nil =>
    cases ds with
    | nil => exact .nil
    | cons d ds => exact absurd h.symm (chained_cons_ne_nil d ds)
  | cons c cs ih =>
    cases ds with
    | nil => exact absurd h (chained_cons_ne_nil c cs)
    | cons d ds =>
      have hlist := congrArg String.toList h
      simp only [chained_cons, String.toList_append, List.append_assoc] at hlist
      obtain ⟨hconnective, hlist⟩ := Predicate.separator_inj hlist
      obtain ⟨hshape, hlist⟩ := Predicate.shape_eq_of_append _ _ (hcs c List.mem_cons_self)
        (hds d List.mem_cons_self) hlist
      refine .cons ⟨hconnective, hshape⟩ (ih ?_ ?_ (String.toList_inj.1 hlist))
      · exact fun c hc => hcs c (List.mem_cons_of_mem _ hc)
      · exact fun d hd => hds d (List.mem_cons_of_mem _ hd)

/-- The text of a section tells its conditions, but for the first connective. -/
theorem forall₂_of_fragments {lead : String} {c d : Condition} {cs ds : List Condition}
    (hcs : ∀ c' ∈ c :: cs, c'.predicate.Worded) (hds : ∀ d' ∈ d :: ds, d'.predicate.Worded)
    (h : Clause.fragments (.text lead) ((c :: cs).map fragment) =
      Clause.fragments (.text lead) ((d :: ds).map fragment)) :
    c.predicate.leveled.shape = d.predicate.leveled.shape ∧ List.Forall₂ Alike cs ds := by
  rw [fragments_eq, fragments_eq] at h
  have hlist := congrArg String.toList (Except.ok.inj h)
  simp only [String.toList_append, List.append_assoc] at hlist
  obtain ⟨hshape, hrest⟩ := Predicate.shape_eq_of_append _ _ (hcs c List.mem_cons_self)
    (hds d List.mem_cons_self) (List.append_cancel_left hlist)
  refine ⟨hshape, forall₂_of_chained ?_ ?_ (String.toList_inj.1 hrest)⟩
  · exact fun c hc => hcs c (List.mem_cons_of_mem _ hc)
  · exact fun d hd => hds d (List.mem_cons_of_mem _ hd)

/-- Conditions of the same shapes with equal operands are equal, where single conditions are
leveled. -/
theorem forall₂_same_of_operands {cs ds : List Condition}
    (h : List.Forall₂ (fun c d => c.predicate.leveled.shape = d.predicate.leveled.shape) cs ds)
    (hoperands : Value.sameAll (cs.flatMap (·.predicate.operands))
      (ds.flatMap (·.predicate.operands)) = true) :
    List.Forall₂ (fun c d => c.predicate.leveled.same d.predicate.leveled = true) cs ds := by
  induction h with
  | nil => exact .nil
  | @cons c d cs ds hshape _ ih =>
    have hlength := Predicate.length_operands_eq hshape
    simp only [Predicate.operands_leveled] at hlength
    simp only [List.flatMap_cons, Value.sameAll_append hlength, Bool.and_eq_true] at hoperands
    refine .cons (Predicate.same_iff.2 ⟨hshape, ?_⟩) (ih hoperands.2)
    simpa using hoperands.1

end Condition

/-! ## Attaching conditions -/

namespace Statement

/-- Attach conditions to a section, one after the other. -/
def attachAll (filter : Filter) : List Condition → Run Statement Unit
  | [] => pure ()
  | c :: rest => do
    attach filter c.connective (.predicate c.predicate)
    attachAll filter rest

/-- No condition was attached to a section. -/
structure Unfiltered (s : Statement) (filter : Filter) : Prop where
  balanced : s.Balanced
  conditions_eq : s.conditions filter = []
  boundIn_eq : s.boundIn (.conditions filter) = []

theorem unfiltered_ofSource (source : Value) (settings : Settings) (filter : Filter) :
    (ofSource source settings).Unfiltered filter := by
  cases filter <;> exact ⟨balanced_ofSource source settings, rfl, rfl⟩

theorem state_attach_of_ok (filter : Filter) (c : Condition) {s : Statement} (hs : s.Balanced)
    (h : ((attach filter c.connective (.predicate c.predicate)).run s).result = .ok ()) :
    ((attach filter c.connective (.predicate c.predicate)).run s).state =
      Change.apply s (.condition filter c) := by
  rw [result_attach .empty, Call.change_attach_of_ok _ _ _ _ (Predicate.ofValue?_predicate _)] at h
  rw [state_attach .empty _ _ _ hs,
    Call.change_attach_of_ok _ _ _ _ (Predicate.ofValue?_predicate _)]
  rcases haccept : s.settings.accept c.predicate.emptyIns with failure | a
  · rw [haccept] at h
    cases h
  · rfl

/-- Conditions that are attached stand behind those of their section, and their operands behind the
values of the section. -/
theorem attachAll_of_ok {filter : Filter} {cs : List Condition} {s : Statement} (hs : s.Balanced)
    (h : ((attachAll filter cs).run s).result = .ok ()) :
    ((attachAll filter cs).run s).state.conditions filter = s.conditions filter ++ cs ∧
      ((attachAll filter cs).run s).state.boundIn (.conditions filter) =
        s.boundIn (.conditions filter) ++ cs.flatMap (·.predicate.operands) := by
  induction cs generalizing s with
  | nil => simp [attachAll]
  | cons c rest ih =>
    have hfirst := state_attach_of_ok filter c hs
    rcases ho : (attach filter c.connective (.predicate c.predicate)).run s with
      ⟨t, events, failure | a⟩
    · simp only [attachAll, Run.run_bind, ho, Run.follow_error] at h
      cases h
    · obtain rfl : t = Change.apply s (.condition filter c) := by
        simpa only [ho, forall_const] using hfirst
      simp only [attachAll, Run.run_bind, ho, Run.follow_ok] at h ⊢
      obtain ⟨hconditions, hbound⟩ := ih (hs.apply _) h
      rw [hconditions, hbound, conditions_apply, boundIn_apply hs]
      simp

/-- Predicates over words have the same text and contribute equal values exactly if they are equal,
where single conditions are leveled. Whatever conditions over words are attached to sections that
had none, the same text and equal values mean that they are as many, with the same connectives after
the first, and with predicates that are equal in this way, one by one. -/
theorem conditions_unambiguous :
    (∀ p q : Predicate Value, p.Worded → q.Worded →
      ((p.sql = q.sql ∧ Value.sameAll p.contributed q.contributed = true) ↔
        p.leveled.same q.leveled = true)) ∧
    ∀ (filter : Filter) (s t : Statement) (cs ds : List Condition),
      s.Unfiltered filter → t.Unfiltered filter → cs ≠ [] → ds ≠ [] →
      (∀ c ∈ cs, c.predicate.Worded) → (∀ d ∈ ds, d.predicate.Worded) →
      ((attachAll filter cs).run s).result = .ok () →
      ((attachAll filter ds).run t).result = .ok () →
      let s' := ((attachAll filter cs).run s).state
      let t' := ((attachAll filter ds).run t).state
      s'.conditionsText filter = t'.conditionsText filter →
      Value.sameAll (s'.boundIn (.conditions filter)) (t'.boundIn (.conditions filter)) = true →
      cs.length = ds.length ∧
        cs.tail.map (·.connective) = ds.tail.map (·.connective) ∧
        List.Forall₂ (fun c d => c.predicate.leveled.same d.predicate.leveled = true) cs ds := by
  refine ⟨?_, ?_⟩
  · intro p q hp hq
    rw [Predicate.contributed_eq, Predicate.contributed_eq]
    exact Predicate.sql_and_operands_iff hp hq
  · intro filter s t cs ds hs ht hcs hds hcsworded hdsworded hattach hattach' s' t' htext hbound
    obtain ⟨hconditions, hvalues⟩ := attachAll_of_ok hs.balanced hattach
    obtain ⟨hconditions', hvalues'⟩ := attachAll_of_ok ht.balanced hattach'
    rw [hs.conditions_eq, List.nil_append] at hconditions
    rw [ht.conditions_eq, List.nil_append] at hconditions'
    rw [hvalues, hvalues', hs.boundIn_eq, ht.boundIn_eq, List.nil_append, List.nil_append] at hbound
    obtain ⟨c, cs, rfl⟩ := List.exists_cons_of_ne_nil hcs
    obtain ⟨d, ds, rfl⟩ := List.exists_cons_of_ne_nil hds
    rw [conditionsText, conditionsText, hconditions, hconditions'] at htext
    obtain ⟨hshape, htail⟩ := Condition.forall₂_of_fragments hcsworded hdsworded htext
    refine ⟨congrArg (· + 1) htail.length_eq, ?_, ?_⟩
    · rw [List.tail_cons, List.tail_cons, ← List.forall₂_eq_eq_eq, List.forall₂_map_left_iff,
        List.forall₂_map_right_iff]
      exact htail.imp fun _ _ h => h.1
    · exact Condition.forall₂_same_of_operands (.cons hshape (htail.imp fun _ _ h => h.2)) hbound

/-- A range, and a group with a single condition, whose connectives are given. -/
def rangeThenGroup (first joiner : Connective) : List Condition :=
  [⟨first, .between "a" (.int 1) (.int 2)⟩,
    ⟨.or, .junction joiner (.comparison .equal "b" (.int 3)) []⟩]

theorem conditions_unambiguous_rangeThenGroup :
    let s := ofSource (.text "t") .default
    let p : Predicate Value := .junction .and (.between "a" (.int 1) (.int 2)) []
    let q : Predicate Value := .junction .or (.between "a" (.int 1) (.int 2)) []
    (p.Worded ∧ q.Worded ∧ p.leveled.same q.leveled = true) ∧
    (∀ c ∈ rangeThenGroup .and .and, c.predicate.Worded) ∧
    ((attachAll .rows (rangeThenGroup .and .and)).run s).result = .ok () ∧
    List.Forall₂ (fun c d => c.predicate.leveled.same d.predicate.leveled = true)
      (rangeThenGroup .and .and) (rangeThenGroup .or .or) := by
  intro s p q
  have hp : p.Worded := by decide
  have hq : q.Worded := by decide
  have hcs : ∀ c ∈ rangeThenGroup .and .and, c.predicate.Worded := by decide
  have hds : ∀ c ∈ rangeThenGroup .or .or, c.predicate.Worded := by decide
  have hattach : ((attachAll .rows (rangeThenGroup .and .and)).run s).result = .ok () := rfl
  have hattach' : ((attachAll .rows (rangeThenGroup .or .or)).run s).result = .ok () := rfl
  have hs := unfiltered_ofSource (.text "t") .default .rows
  have hvalues : Value.sameAll p.contributed q.contributed = true := by
    simp [p, q, Predicate.contributed_eq, Predicate.operands, Predicate.operandsOfAll,
      Value.sameAll, Value.same, Value.text?, Value.number?, Value.sameNumber]
  have hbound : Value.sameAll [.int 1, .int 2, .int 3] [.int 1, .int 2, .int 3] = true := by
    simp [Value.sameAll, Value.same, Value.text?, Value.number?, Value.sameNumber]
  refine ⟨⟨hp, hq, (conditions_unambiguous.1 p q hp hq).1 ⟨rfl, hvalues⟩⟩, hcs, hattach, ?_⟩
  exact (conditions_unambiguous.2 .rows s s _ _ hs hs (List.cons_ne_nil _ _)
    (List.cons_ne_nil _ _) hcs hds hattach hattach' rfl hbound).2.2

end Statement

end BoundQuery
