import BoundQuery.Proofs.Statement.Slots
import BoundQuery.Proofs.Store.Actions

/-!
# Calls of different slots commute

Two statements that are equal stay so under calls that are the same for every slot, in whatever
order the slots take turns: the same calls fail, the texts and the statements compiled are equal,
and the bound values differ in their order at most. Of other statements, a call takes in nothing
but the texts that it orders by; these must not take in the two statements themselves.

## Main definitions

* `Call.displayed`: the statements whose texts a call takes in when it is made.
* `Store.outcomes`: calls on a statement, each with what it ended in.

## Main statements

* `Store.SameOff.after_calls`: what a statement is after some calls.
* `Store.slots_commute`: calls of different slots commute.
-/

namespace BoundQuery

/-- The statements whose texts a call takes in when it is made. -/
def Call.displayed : Call → List Ref
  | orderBy expr _ => expr.shown
  | _ => []

/-- The texts that a call takes in decide its change. -/
theorem Call.change_congr {f g : Resolver} (c : Call) (h : ∀ r ∈ c.displayed, f r = g r)
    (settings : Settings) : c.change f settings = c.change g settings := by
  cases c with
  | orderBy expr ascending =>
    simp only [change, Statement.ordering, Value.display_congr expr h]
  | _ => rfl

/-- The changes that calls make to a statement of given settings, from first to last. -/
def Call.changes (resolve : Resolver) (settings : Settings) (cs : List Call) : List Change :=
  cs.filterMap fun c => (c.change resolve settings).toOption

theorem Call.changes_cons (resolve : Resolver) (settings : Settings) (c : Call) (rest : List Call) :
    changes resolve settings (c :: rest) =
      (c.change resolve settings).toOption.toList ++ changes resolve settings rest := by
  rw [changes, List.filterMap_cons]
  cases c.change resolve settings <;> rfl

/-- The changes that go to a slot are those of the calls that go there. -/
theorem Call.filter_changes (resolve : Resolver) (settings : Settings) (cs : List Call)
    (slot : Slot) :
    (changes resolve settings cs).filter (·.slot = slot) =
      changes resolve settings (cs.filter (·.slot = slot)) := by
  induction cs with
  | nil => rfl
  | cons c rest ih =>
    rw [changes_cons, List.filter_append, ih]
    by_cases hslot : c.slot = slot
    · rw [List.filter_cons_of_pos (by simpa using hslot), changes_cons]
      rcases hc : c.change resolve settings with failure | change
      · rfl
      · have hchange : change.slot = slot := (slot_change hc).trans hslot
        simp [Except.toOption, hchange]
    · rw [List.filter_cons_of_neg (by simpa using hslot)]
      rcases hc : c.change resolve settings with failure | change
      · rfl
      · have hchange : change.slot ≠ slot := by
          rw [slot_change hc]
          exact hslot
        simp [Except.toOption, hchange]

namespace Store

/-- Calls on a statement that are made one after the other, each with what it ends in. -/
def outcomes (store : Store) (r : Ref) : List Call → List (Call × Except Failure Unit)
  | [] => []
  | c :: rest =>
    (c, ((call r c).run store).result) :: outcomes ((call r c).run store).state r rest

/-- Calls on one statement leave the others as they are. -/
theorem getElem?_after_calls {store : Store} {r : Ref} {j : Nat} (hj : j < store.size)
    (hne : r.index ≠ j) (cs : List Call) :
    (store.after (cs.map (.call r))).statements[j]? = store.statements[j]? := by
  refine getElem?_after hj ?_
  intro p c hc
  obtain ⟨d, -, hd⟩ := List.mem_map.1 hc
  cases hd
  exact hne

/-- Two stores differ in some places at most. -/
structure SameOff (K : Nat → Prop) (store later : Store) : Prop where
  size_eq : later.size = store.size
  getElem?_eq : ∀ j, ¬ K j → later.statements[j]? = store.statements[j]?

variable {K : Nat → Prop} {store later : Store}

theorem SameOff.refl (K : Nat → Prop) (store : Store) : SameOff K store store :=
  ⟨rfl, fun _ _ => rfl⟩

/-- Statements that reach none of these places have the same text. -/
theorem SameOff.text_eq (h : SameOff K store later) {p : Ref}
    (hp : ∀ k, store.Reaches p.index k → ¬ K k) : later.text p = store.text p := by
  rw [text, text, h.size_eq]
  exact textWithin_congr _ fun j hj => h.getElem?_eq j (hp j hj)

theorem SameOff.call (h : SameOff K store later) {r : Ref} (hr : K r.index) (c : Call) :
    SameOff K store ((call r c).run later).state := by
  refine ⟨by rw [size_call, h.size_eq], ?_⟩
  intro j hj
  rw [getElem?_call ?_, h.getElem?_eq j hj]
  rintro rfl
  exact hj hr

/-- Calls on a statement in one of these places make their changes to it, and end in what the texts
of the first store decide. -/
theorem SameOff.after_calls (h : SameOff K store later) {r : Ref} (hr : K r.index) {s : Statement}
    (hs : later.get? r = some s) (hbalanced : s.Balanced) {cs : List Call}
    (hfree : ∀ c ∈ cs, ∀ p ∈ c.displayed, ∀ k, store.Reaches p.index k → ¬ K k) :
    (later.after (cs.map (.call r))).get? r =
        some ((Call.changes store.text s.settings cs).foldl Change.apply s) ∧
      later.outcomes r cs =
        cs.map (fun c => (c, (c.change store.text s.settings).map fun _ => ())) ∧
      SameOff K store (later.after (cs.map (.call r))) := by
  -- The first store stays fixed: what a call takes in has the text there that it has now.
  induction cs generalizing later s with
  | nil => exact ⟨hs, rfl, h⟩
  | cons c rest ih =>
    have hchange : c.change later.text s.settings = c.change store.text s.settings :=
      c.change_congr (fun p hp => h.text_eq (hfree c List.mem_cons_self p hp)) s.settings
    have hresult : ((Store.call r c).run later).result =
        (c.change store.text s.settings).map fun _ => () := by
      rw [result_call_of_get? hs, Call.result_perform, hchange]
    have hrest := fun d hd => hfree d (List.mem_cons_of_mem c hd)
    have hstate : ((Store.call r c).run later).state = later.set r
        ((Call.changes store.text s.settings [c]).foldl Change.apply s) := by
      rw [state_call_of_get? hs, Call.state_perform _ _ hbalanced, hchange, Call.changes_cons]
      rcases c.change store.text s.settings with failure | change <;> rfl
    let t := (Call.changes store.text s.settings [c]).foldl Change.apply s
    have ht : ((Store.call r c).run later).state.get? r = some t := by
      rw [hstate, get?_set, if_pos rfl, hs]
      rfl
    have htsettings : t.settings = s.settings := Statement.settings_foldl _ _
    obtain ⟨hget, houtcomes, hoff⟩ := ih (h.call hr c) ht (hbalanced.foldl _) hrest
    rw [htsettings] at hget houtcomes
    rw [List.map_cons, after_cons, state_perform_call]
    refine ⟨?_, ?_, hoff⟩
    · rw [hget, Call.changes_cons _ _ c rest, List.foldl_append]
      simp only [t, Call.changes_cons, List.foldl_append]
      rfl
    · rw [outcomes, houtcomes, hresult]
      rfl

/-- Two equal statements are given calls that are the same for every slot, in any order of the
slots. Then the same calls fail, and the statements have the same text, compile to the same and
have the same bound values, in some order. -/
theorem slots_commute {actions : List Action} {r q : Ref} {s : Statement} {cs ds : List Call}
    (hr : (empty.after actions).get? r = some s) (hq : (empty.after actions).get? q = some s)
    (hvariant : r.variant = q.variant) (hne : r.index ≠ q.index)
    (hslots : ∀ slot, cs.filter (·.slot = slot) = ds.filter (·.slot = slot))
    (hfree : ∀ c ∈ cs, ∀ p ∈ c.displayed,
      ¬ (empty.after actions).Reaches p.index r.index ∧
        ¬ (empty.after actions).Reaches p.index q.index) :
    let store := empty.after actions
    let left := store.after (cs.map (.call r))
    let last := left.after (ds.map (.call q))
    (∀ slot, (store.outcomes r cs).filter (·.1.slot = slot) =
      (left.outcomes q ds).filter (·.1.slot = slot)) ∧
    last.text r = last.text q ∧ last.compile r = last.compile q ∧
    ∃ a b, last.get? r = some a ∧ last.get? q = some b ∧ a.bound.Perm b.bound := by
  intro store left last
  have hbalanced : s.Balanced := balanced_after actions (List.mem_of_getElem? hr)
  let K : Nat → Prop := fun k => k = r.index ∨ k = q.index
  have hfreecs : ∀ c ∈ cs, ∀ p ∈ c.displayed, ∀ k, store.Reaches p.index k → ¬ K k := by
    rintro c hc p hp k hk (rfl | rfl)
    · exact (hfree c hc p hp).1 hk
    · exact (hfree c hc p hp).2 hk
  have hfreeds : ∀ c ∈ ds, ∀ p ∈ c.displayed, ∀ k, store.Reaches p.index k → ¬ K k := by
    intro c hc
    have hmem : c ∈ ds.filter (·.slot = c.slot) := List.mem_filter.2 ⟨hc, by simp⟩
    rw [← hslots] at hmem
    exact hfreecs c (List.mem_of_mem_filter hmem)
  obtain ⟨hleft, houtcomes, hoff⟩ :=
    (SameOff.refl K store).after_calls (.inl rfl) hr hbalanced hfreecs
  have hleftq : left.get? q = some s := by
    rw [← hq]
    exact getElem?_after_calls (lt_size_of_get? hq) hne cs
  obtain ⟨hlastq, houtcomes', -⟩ := hoff.after_calls (.inr rfl) hleftq hbalanced hfreeds
  have hlastr : last.get? r =
      some ((Call.changes store.text s.settings cs).foldl Change.apply s) := by
    rw [← hleft]
    exact getElem?_after_calls (lt_size_of_get? hleft) hne.symm ds
  have hsame : ∀ slot, Slot.Same ((Call.changes store.text s.settings cs).foldl Change.apply s)
      ((Call.changes store.text s.settings ds).foldl Change.apply s) slot := by
    refine Slot.same_of_filter_eq hbalanced ?_
    intro slot
    rw [Call.filter_changes, Call.filter_changes, hslots]
  have htext : last.text r = last.text q := by
    rw [text_of_get? hlastr, text_of_get? hlastq, ← hvariant]
    exact Statement.text_eq_of_same hsame (by simp) _ _
  refine ⟨?_, htext, ?_, _, _, hlastr, hlastq,
    Statement.bound_perm_of_same hsame (hbalanced.foldl _) (hbalanced.foldl _)⟩
  · intro slot
    rw [houtcomes, houtcomes', List.filter_map, List.filter_map]
    exact congrArg _ (hslots slot)
  · rw [compile, compile, compileWithin_succ hlastr, compileWithin_succ hlastq, htext]
    exact Statement.compileFrom_eq_of_same hsame _ _

/-- Two equal queries that refuse INs without values. -/
def twoQueries : List Action :=
  [.query (.text "t") ⟨.reject, false⟩, .query (.text "t") ⟨.reject, false⟩]

/-- Two conditions on rows, of which the first is refused after a value was bound. -/
def rowCalls : List Call :=
  [.attach .rows .and (.predicate (.junction .or (.comparison .equal "a" (.int 1)) [.isIn "b" []])),
    .attach .rows .and (.predicate (.comparison .equal "c" (.int 2)))]

def groupCall : Call := .attach .groups .and (.predicate (.comparison .greater "n" (.int 3)))

theorem slots_commute_twoQueries :
    let store := empty.after twoQueries
    let left := store.after ((groupCall :: rowCalls).map (.call ⟨.query, 0⟩))
    let last := left.after ((rowCalls ++ [groupCall]).map (.call ⟨.query, 1⟩))
    (∀ slot, (store.outcomes ⟨.query, 0⟩ (groupCall :: rowCalls)).filter (·.1.slot = slot) =
      (left.outcomes ⟨.query, 1⟩ (rowCalls ++ [groupCall])).filter (·.1.slot = slot)) ∧
    last.text ⟨.query, 0⟩ = last.text ⟨.query, 1⟩ ∧
    last.compile ⟨.query, 0⟩ = last.compile ⟨.query, 1⟩ ∧
    ∃ a b, last.get? ⟨.query, 0⟩ = some a ∧ last.get? ⟨.query, 1⟩ = some b ∧
      a.bound.Perm b.bound := by
  refine slots_commute (s := .ofSource (.text "t") ⟨.reject, false⟩) rfl rfl rfl (by decide) ?_ ?_
  · rintro (_ | _ | _ | (_ | _) | _ | _ | _ | _ | _) <;> rfl
  · simp [groupCall, rowCalls, Call.displayed]

end Store

end BoundQuery
