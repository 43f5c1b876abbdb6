import BoundQuery.Proofs.Statement.Events
import BoundQuery.Proofs.Store.Commute
import BoundQuery.Proofs.Store.Mirror

/-!
# A copy is observed like its statement

The same calls, made on a statement or on its copy, fail alike and log the same, and after any
number of them both show the same to their users. What a call hands over must not take in the
statement itself: it would show the calls on the statement, but not those on the copy.

A call makes the same change to both, as they have the same settings. The statement and the copy
then differ in their columns and branches only: those that they had mirror each other, and those
that were handed over are the same. These all stand in the store as it was before the calls.

## Main definitions

* `Store.replies`: calls on a statement, each with what it logged and what it ended in.
* `Statement.viewIn`: what a statement shows to its users, given the store of its parts.

## Main statements

* `Change.apply_copy`: a change to a copy.
* `Store.replies_eq`, `Store.view_after_calls`: what calls on a statement give, and what it shows
  after them.
* `Store.clone_observed_alike`: the same calls on a statement and on its copy.
-/

namespace BoundQuery

/-! ## Changes to a copy -/

namespace Change

/-- The columns that a change adds. -/
def newColumns : Change → List Value
  | columns names _ => names
  | _ => []

/-- The branches that a change adds. -/
def newBranches : Change → List Value
  | union branch => [branch]
  | _ => []

/-- A change to a copy gives the copy of the changed statement, with what the change adds. -/
theorem apply_copy (s : Statement) (columns branches : List Value) (change : Change) :
    change.apply (s.copy columns branches) =
      (change.apply s).copy (columns ++ change.newColumns) (branches ++ change.newBranches) := by
  cases change with
  | condition filter c =>
    simp only [newColumns, newBranches, List.append_nil]
    cases filter <;> rfl
  | _ =>
    simp only [newColumns, newBranches, List.append_nil]
    rfl

theorem foldl_copy (changes : List Change) (s : Statement) (columns branches : List Value) :
    changes.foldl apply (s.copy columns branches) =
      (changes.foldl apply s).copy (columns ++ changes.flatMap newColumns)
        (branches ++ changes.flatMap newBranches) := by
  induction changes generalizing s columns branches with
  | nil => simp
  | cons change rest ih =>
    rw [List.foldl_cons, List.foldl_cons, apply_copy, ih, List.flatMap_cons, List.flatMap_cons,
      List.append_assoc, List.append_assoc]

end Change

namespace Statement.Balanced

variable {s : Statement}

theorem copy_self (h : s.Balanced) : s.copy s.columns s.branches = s := by
  rw [copy, turnTo, ← h.part_eq]

theorem columns_foldl (h : s.Balanced) (changes : List Change) :
    (changes.foldl Change.apply s).columns = s.columns ++ changes.flatMap Change.newColumns := by
  have hcopy := Change.foldl_copy changes s s.columns s.branches
  rw [h.copy_self] at hcopy
  exact congrArg columns hcopy

theorem branches_foldl (h : s.Balanced) (changes : List Change) :
    (changes.foldl Change.apply s).branches = s.branches ++ changes.flatMap Change.newBranches := by
  have hcopy := Change.foldl_copy changes s s.columns s.branches
  rw [h.copy_self] at hcopy
  exact congrArg branches hcopy

end Statement.Balanced

/-- A statement shows after some calls what it showed before, and what the calls handed over. -/
theorem Call.mem_shown_foldl {resolve : Resolver} {settings : Settings} {cs : List Call}
    {s : Statement} {q : Ref}
    (hq : q ∈ ((changes resolve settings cs).foldl Change.apply s).shown) :
    q ∈ s.shown ∨ ∃ c ∈ cs, q ∈ c.shown := by
  induction cs generalizing s with
  | nil => exact .inl hq
  | cons c rest ih =>
    rw [changes_cons, List.foldl_append] at hq
    rcases ih hq with hq | ⟨d, hd, hq⟩
    · rcases hchange : c.change resolve settings with failure | change
      · rw [hchange] at hq
        exact .inl hq
      · rw [hchange] at hq
        exact (mem_shown_apply hchange hq).imp_right fun hq => ⟨c, List.mem_cons_self, hq⟩
    · exact .inr ⟨d, List.mem_cons_of_mem c hd, hq⟩

namespace Statement

/-- What a statement of a given shape shows to its users, where its parts are those of a store. -/
def viewIn (store : Store) (variant : Variant) (s : Statement) : View :=
  let text := s.text (store.textWithin store.size) variant
  ⟨text, s.compileFrom (store.compileWithin store.size) text, some s.bound⟩

/-- A copy whose parts mirror those of its statement shows the same. -/
theorem viewIn_copy {store : Store} {s : Statement} {columns branches : List Value}
    (hcolumns : List.Forall₂ (Value.Mirrored store.Mirrors) s.columns columns)
    (hbranches : List.Forall₂ (Value.Mirrored store.Mirrors) s.branches branches)
    (variant : Variant) :
    (s.copy columns branches).viewIn store variant = s.viewIn store variant := by
  have htext := s.text_copy hcolumns hbranches
    (fun _ _ h => h.textWithin_eq (.refl store) store.size) variant
  have hcompile := s.compileFrom_copy hcolumns hbranches (fun _ _ h => h.variant_eq)
    fun _ _ h => h.compileWithin_eq (.refl store) store.size
  simp only [viewIn, htext, hcompile]
  rfl

end Statement

namespace Store

/-! ## Calls on one statement -/

section Calls

variable {K : Nat → Prop} {store later : Store}

/-- Statements that reach none of the places where stores differ compile to the same. -/
theorem SameOff.compileWithin_eq (h : SameOff K store later) (n : Nat) {p : Ref}
    (hp : ∀ k, store.Reaches p.index k → ¬ K k) :
    later.compileWithin n p = store.compileWithin n p := by
  induction n generalizing p with
  | zero => rfl
  | succ n ih =>
    have hget : later.get? p = store.get? p := h.getElem?_eq p.index (hp p.index .refl)
    cases hs : store.get? p with
    | none => rw [compileWithin_succ_of_none hs, compileWithin_succ_of_none (hget.trans hs)]
    | some s =>
      rw [compileWithin_succ hs, compileWithin_succ (hget.trans hs), h.text_eq hp]
      refine s.compileFrom_congr ?_ _
      intro q hq
      exact ih fun k hk => hp k (.head (shows_of_get? hs hq) hk)

/-- What a statement shows whose parts reach none of the places where stores differ. -/
theorem SameOff.view_eq (h : SameOff K store later) {r : Ref} {s : Statement}
    (hs : later.get? r = some s) (hshown : ∀ p ∈ s.shown, ∀ k, store.Reaches p.index k → ¬ K k) :
    later.view r = s.viewIn store r.variant := by
  have htext : later.text r = s.text (store.textWithin store.size) r.variant := by
    rw [text_of_get? hs, h.size_eq]
    refine s.text_congr ?_ r.variant
    intro p hp
    exact textWithin_congr _ fun j hj => h.getElem?_eq j (hshown p hp j hj)
  have hcompile : later.compile r =
      s.compileFrom (store.compileWithin store.size) (later.text r) := by
    rw [compile, compileWithin_succ hs, h.size_eq]
    exact s.compileFrom_congr (fun p hp => h.compileWithin_eq _ (hshown p hp)) _
  rw [view, hcompile, htext, hs]
  rfl

/-- Calls on a statement that are made one after the other, each with what it logged and what it
ended in. -/
def replies (store : Store) (r : Ref) : List Call → List (List Event × Except Failure Unit)
  | [] => []
  | c :: rest =>
    let o := (call r c).run store
    (o.events, o.result) :: replies o.state r rest

theorem events_call_of_get? {r : Ref} {s : Statement} (hs : store.get? r = some s) (c : Call) :
    ((call r c).run store).events = ((c.perform store.text).run s).events := by
  simp only [call, hs]

theorem SameOff.replies_eq (h : SameOff K store later) {r : Ref} (hr : K r.index) {s : Statement}
    (hs : later.get? r = some s) (hbalanced : s.Balanced) {cs : List Call}
    (hfree : ∀ c ∈ cs, ∀ p ∈ c.displayed, ∀ k, store.Reaches p.index k → ¬ K k) :
    later.replies r cs =
      cs.map fun c => (c.events s.settings, (c.change store.text s.settings).map fun _ => ()) := by
  induction cs generalizing later s with
  | nil => rfl
  | cons c rest ih =>
    have hone : ∀ d ∈ [c], ∀ p ∈ d.displayed, ∀ k, store.Reaches p.index k → ¬ K k := by
      intro d hd
      rw [List.mem_singleton.1 hd]
      exact hfree c List.mem_cons_self
    obtain ⟨hget, houtcomes, -⟩ := h.after_calls hr hs hbalanced hone
    rw [List.map_singleton, after_cons, after_nil, state_perform_call] at hget
    have hresult : ((Store.call r c).run later).result =
        (c.change store.text s.settings).map fun _ => () :=
      congrArg Prod.snd (List.cons.inj houtcomes).1
    have hevents : ((Store.call r c).run later).events = c.events s.settings := by
      rw [events_call_of_get? hs, Call.events_perform _ _ hbalanced]
    rw [replies, hevents, hresult, List.map_cons, ih (h.call hr c) hget (hbalanced.foldl _)
      fun d hd => hfree d (List.mem_cons_of_mem c hd)]
    rw [Statement.settings_foldl]

end Calls

section Settled

variable {store : Store} {r : Ref} {s : Statement} {cs : List Call}

/-- What calls on a statement log and end in is settled by the store before them, where they take in
no text that the statement is a part of. -/
theorem replies_eq (hs : store.get? r = some s) (hbalanced : s.Balanced)
    (hdisplayed : ∀ c ∈ cs, ∀ p ∈ c.displayed, ¬ store.Reaches p.index r.index) :
    store.replies r cs =
      cs.map fun c => (c.events s.settings, (c.change store.text s.settings).map fun _ => ()) := by
  refine (SameOff.refl (· = r.index) store).replies_eq rfl hs hbalanced ?_
  rintro c hc p hp k hk rfl
  exact hdisplayed c hc p hp hk

/-- What a statement shows after calls on it is settled by the store before them, where neither it
nor the calls show what it is a part of. -/
theorem view_after_calls (hs : store.get? r = some s) (hbalanced : s.Balanced)
    (hown : ∀ q ∈ s.shown, ¬ store.Reaches q.index r.index)
    (hshown : ∀ c ∈ cs, ∀ p ∈ c.shown, ¬ store.Reaches p.index r.index)
    (hdisplayed : ∀ c ∈ cs, ∀ p ∈ c.displayed, ¬ store.Reaches p.index r.index) :
    (store.after (cs.map (.call r))).view r =
      ((Call.changes store.text s.settings cs).foldl Change.apply s).viewIn store r.variant := by
  have hfree : ∀ c ∈ cs, ∀ p ∈ c.displayed, ∀ k, store.Reaches p.index k → ¬ k = r.index := by
    rintro c hc p hp k hk rfl
    exact hdisplayed c hc p hp hk
  obtain ⟨hget, -, hoff⟩ :=
    (SameOff.refl (· = r.index) store).after_calls rfl hs hbalanced hfree
  refine hoff.view_eq hget ?_
  rintro q hq k hk rfl
  rcases Call.mem_shown_foldl hq with hq | ⟨c, hc, hq⟩
  · exact hown q hq hk
  · exact hshown c hc q hq hk

end Settled

/-! ## The same calls on a statement and on its copy -/

/-- The same calls on a statement and on its copy log the same and end in the same, and leave both
showing the same, where what they show reaches neither. -/
theorem Copied.observed_alike {store : Store} {r q : Ref} (h : store.Copied r q)
    (hbalanced : ∀ s ∈ store.statements, s.Balanced) (hacyclic : store.Acyclic) {cs : List Call}
    (hcs : ∀ c ∈ cs, ∀ p ∈ c.shown ++ c.displayed,
      ¬ store.Reaches p.index r.index ∧ ¬ store.Reaches p.index q.index) :
    store.replies q cs = store.replies r cs ∧
      (store.after (cs.map (.call q))).view q = (store.after (cs.map (.call r))).view r := by
  obtain ⟨hvariant, s, columns, branches, hr, hq, hcolumns, hbranches⟩ := h
  have hs : s.Balanced := hbalanced s (List.mem_of_getElem? hr)
  have ht : (s.copy columns branches).Balanced := hbalanced _ (List.mem_of_getElem? hq)
  have hshown := fun c hc p hp => hcs c hc p (List.mem_append_left _ hp)
  have hdisplayed := fun c hc p hp => hcs c hc p (List.mem_append_right _ hp)
  have hviewr := view_after_calls hr hs (fun p hp => hacyclic.not_reaches hr hp)
    (fun c hc p hp => (hshown c hc p hp).1) fun c hc p hp => (hdisplayed c hc p hp).1
  have hviewq := view_after_calls hq ht (fun p hp => hacyclic.not_reaches hq hp)
    (fun c hc p hp => (hshown c hc p hp).2) fun c hc p hp => (hdisplayed c hc p hp).2
  refine ⟨?_, ?_⟩
  · rw [replies_eq hq ht fun c hc p hp => (hdisplayed c hc p hp).2,
      replies_eq hr hs fun c hc p hp => (hdisplayed c hc p hp).1]
    rfl
  · rw [hviewq, hviewr, hvariant]
    let changes := Call.changes store.text s.settings cs
    change (changes.foldl Change.apply (s.copy columns branches)).viewIn store r.variant = _
    rw [Change.foldl_copy]
    -- The parts that the copy was made with mirror those of the statement; the calls add the same.
    refine Statement.viewIn_copy ?_ ?_ r.variant
    · rw [hs.columns_foldl]
      exact List.rel_append (hcolumns.imp fun _ _ h => h.mirrored)
        (List.forall₂_same.2 fun _ _ => .inl rfl)
    · rw [hs.branches_foldl]
      exact List.rel_append (hbranches.imp fun _ _ h => h.mirrored)
        (List.forall₂_same.2 fun _ _ => .inl rfl)

/-- A copy of a statement has its shape, its label and its settings. The same calls on either, which
show statements that were there before and do not take in the statement, log the same and end in the
same one by one, and after any number of them both show the same. -/
theorem clone_observed_alike {store : Store} (hreachable : store.Reachable)
    (hacyclic : store.Acyclic) (htyped : ∀ s ∈ store.statements, s.Typed) {r : Ref} {s : Statement}
    (hr : store.get? r = some s) :
    ∃ copies events twin t, (clone r).run store = ⟨copies, events, .ok twin⟩ ∧
      twin.variant = r.variant ∧ copies.get? twin = some t ∧ t.label = s.label ∧
      t.settings = s.settings ∧
      ∀ cs : List Call,
        (∀ c ∈ cs, ∀ p ∈ c.shown ++ c.displayed,
          p.index < store.size ∧ ¬ store.Reaches p.index r.index) →
        copies.replies twin cs = copies.replies r cs ∧
          ∀ n, (copies.after ((cs.take n).map (.call twin))).view twin =
            (copies.after ((cs.take n).map (.call r))).view r := by
  have hclosed := hreachable.closed
  obtain ⟨twin, htwin, -⟩ := returns_cloneWithin hclosed htyped
    (within_of_acyclic hacyclic r.index) (lt_size_of_get? hr) (.refl store)
  rw [← run_clone_of_ok htwin] at htwin
  obtain ⟨⟨hcopying, hext⟩, hends⟩ := ends_clone_copying htyped r
  obtain ⟨-, hstart, -⟩ := hends twin htwin
  have hcopied := (ends_clone_copied r store).2 twin htwin
  have hbalanced := balanced_perform (.clone r) fun t ht => hreachable.balanced ht
  rw [show perform (.clone r) = clone r from rfl] at hbalanced
  rcases ho : (clone r).run store with ⟨copies, events, result⟩
  simp only [ho] at htwin hcopying hext hcopied hbalanced
  have hacyclic' : copies.Acyclic := hcopying.stacked.acyclic_of_extends hclosed hacyclic hext
  have ⟨hvariant, s', columns, branches, hr', hq, _⟩ := hcopied
  obtain rfl : s = s' := Option.some.inj ((hext.get?_of_eq_some hr).symm.trans hr')
  refine ⟨copies, events, twin, s.copy columns branches, by rw [htwin], hvariant, hq, rfl, rfl, ?_⟩
  intro cs hcs
  have hfree : ∀ c ∈ cs, ∀ p ∈ c.shown ++ c.displayed,
      ¬ copies.Reaches p.index r.index ∧ ¬ copies.Reaches p.index twin.index := by
    intro c hc p hp
    obtain ⟨hlt, hnot⟩ := hcs c hc p hp
    refine ⟨fun h => hnot (hclosed.reaches_of_extends hext hlt h), fun h => ?_⟩
    have := hclosed.lt_size_of_reaches hlt (hclosed.reaches_of_extends hext hlt h)
    omega
  refine ⟨(hcopied.observed_alike hbalanced hacyclic' hfree).1, fun n => ?_⟩
  exact (hcopied.observed_alike hbalanced hacyclic'
    fun c hc => hfree c (List.mem_of_mem_take hc)).2

/-- Calls that hand over a subselect and a query, and one that attaches an IN without values. -/
def sharingCalls : List Call :=
  [.columns [.statement ⟨.subselect, 1⟩] .null, .attach .rows .and (.predicate (.isIn "b" [])),
    .orderBy (.statement ⟨.query, 0⟩) (.bool true), .union (.statement ⟨.query, 0⟩)]

theorem clone_observed_alike_nested :
    nested.Reachable ∧ nested.Acyclic ∧ (∀ s ∈ nested.statements, s.Typed) ∧
      (∀ c ∈ sharingCalls, ∀ p ∈ c.shown ++ c.displayed,
        p.index < nested.size ∧ ¬ nested.Reaches p.index 2) ∧
      ∃ copies events twin t, (clone ⟨.query, 2⟩).run nested = ⟨copies, events, .ok twin⟩ ∧
        twin.variant = .query ∧ copies.get? twin = some t ∧ t.label = .null ∧
        t.settings = .default ∧
        copies.replies twin sharingCalls = copies.replies ⟨.query, 2⟩ sharingCalls ∧
          ∀ n, (copies.after ((sharingCalls.take n).map (.call twin))).view twin =
            (copies.after ((sharingCalls.take n).map (.call ⟨.query, 2⟩))).view ⟨.query, 2⟩ := by
  have hcalls : ∀ c ∈ sharingCalls, ∀ p ∈ c.shown ++ c.displayed,
      p.index < nested.size ∧ ¬ nested.Reaches p.index 2 := by
    intro c hc p hp
    have hlt : p.index < 2 := by
      revert c p
      decide
    refine ⟨hlt.trans (by decide), fun h => ?_⟩
    have := (stacked_nested.of_reaches (Nat.zero_le _) h).2
    omega
  obtain ⟨copies, events, twin, t, hrun, hvariant, ht, hlabel, hsettings, halike⟩ :=
    clone_observed_alike reachable_nested stacked_nested.acyclic typed_nested
      (r := ⟨.query, 2⟩) rfl
  exact ⟨reachable_nested, stacked_nested.acyclic, typed_nested, hcalls, copies, events, twin, t,
    hrun, hvariant, ht, hlabel, hsettings, halike sharingCalls hcalls⟩

end Store

end BoundQuery
