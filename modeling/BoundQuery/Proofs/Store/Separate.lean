import BoundQuery.Proofs.Store.Reachable

/-!
# Copies are separate

A copy is made of new statements only: each of them shows new ones that were made before it. So a
call on any older statement, whatever is handed over, shows nowhere in a copy, and a call on a new
one shows in no older statement.

## Main definitions

* `Statement.Typed`: columns are texts or subselects, branches are statements, labels are texts.
* `Store.Stacked`: from some place on, statements show only earlier ones from that place on.
* `Store.Separate`: what calls on either side of a copy leave alone.

## Main statements

* `Store.returns_cloneWithin`: statements with typed parts can be copied.
* `Store.separate_clone`: a copy is separate from all statements that were there before.
-/

namespace BoundQuery

/-- Columns are texts or subselects, branches are statements, and a label is a text. -/
structure Statement.Typed (s : Statement) : Prop where
  label : s.label = .null ∨ ∃ t, s.label.text? = some t
  columns : ∀ v ∈ s.columns, (∃ t, v.text? = some t) ∨ ∃ r, v.subselect? = some r
  branches : ∀ v ∈ s.branches, ∃ r, v = .statement r

theorem Value.shown_of_text? {v : Value} {t : String} (h : v.text? = some t) : v.shown = [] := by
  cases v <;> first | rfl | cases h

namespace Statement

theorem typed_blank {label : Value} (h : label = .null ∨ ∃ t, label.text? = some t)
    (settings : Settings) : (blank label settings).Typed where
  label := h
  columns := by simp [blank]
  branches := by simp [blank]

theorem typed_ofSource (source : Value) (settings : Settings) :
    (ofSource source settings).Typed := { typed_blank (.inl rfl) settings with }

variable {s : Statement} {columns branches : List Value}

theorem Typed.copy (h : s.Typed)
    (hcolumns : List.Forall₂ (CopiedColumn fun r q => q.variant = r.variant) s.columns columns)
    (hbranches : List.Forall₂ (CopiedBranch fun r q => q.variant = r.variant) s.branches branches) :
    (s.copy columns branches).Typed := by
  refine ⟨h.label, ?_, ?_⟩
  · intro v hv
    obtain ⟨u, hu, hcopied⟩ := exists_mem_of_forall₂ hcolumns hv
    rcases hcopied.eq_or_subselect with heq | hsubselect
    · rw [heq]
      exact h.columns u hu
    · exact .inr hsubselect
  · intro v hv
    obtain ⟨u, hu, r, q, hur, hvq, -⟩ := exists_mem_of_forall₂ hbranches hv
    exact ⟨q, hvq⟩

/-- What the copy of a typed statement shows is in place of subselects and branches. -/
theorem Typed.forall_mem_shown_copy (h : s.Typed) {P : Ref → Prop}
    (hcolumns : List.Forall₂ (CopiedColumn fun _ => P) s.columns columns)
    (hbranches : List.Forall₂ (CopiedBranch fun _ => P) s.branches branches) :
    ∀ q ∈ (s.copy columns branches).shown, P q := by
  refine Statement.forall_mem_shown_copy ?_ ?_ hcolumns hbranches
  · intro v hv hnone q hq
    rcases h.columns v hv with ⟨t, ht⟩ | ⟨r, hr⟩
    · rw [Value.shown_of_text? ht] at hq
      cases hq
    · rw [hnone] at hr
      cases hr
  · intro q hq
    rcases h.label with hnull | ⟨t, ht⟩
    · rw [hnull] at hq
      cases hq
    · rw [Value.shown_of_text? ht] at hq
      cases hq

end Statement

namespace Store

open Run

/-! ## Statements that show earlier ones -/

/-- From a place on, statements show only earlier ones from that place on. -/
def Stacked (store : Store) (start : Nat) : Prop :=
  ∀ i, start ≤ i → ∀ j, store.Shows i j → start ≤ j ∧ j < i

theorem Stacked.within {store : Store} {start : Nat} (h : store.Stacked start) {i : Nat}
    (hi : start ≤ i) : store.Within (i + 1) i := by
  induction i using Nat.strong_induction_on with
  | _ i ih =>
    intro j hj
    obtain ⟨hstart, hlt⟩ := h i hi j hj
    exact (ih j hlt hstart).mono hlt

theorem Stacked.of_reaches {store : Store} {start : Nat} (h : store.Stacked start) {i j : Nat}
    (hi : start ≤ i) (hij : store.Reaches i j) : start ≤ j ∧ j ≤ i := by
  induction hij with
  | refl => exact ⟨hi, Nat.le_refl i⟩
  | tail _ hjk ih =>
    obtain ⟨hstart, hlt⟩ := h _ ih.1 _ hjk
    exact ⟨hstart, hlt.le.trans ih.2⟩

/-- Where statements show only earlier ones, none is a part of itself. -/
theorem Stacked.acyclic {store : Store} (h : store.Stacked 0) : store.Acyclic := by
  intro i hi
  obtain ⟨k, hik, hki⟩ := Relation.TransGen.head'_iff.1 hi
  have hlt := (h i (Nat.zero_le i) k hik).2
  have hle := (h.of_reaches (Nat.zero_le k) hki).2
  omega

/-- New statements that show only earlier new ones make up no cycle. -/
theorem Stacked.acyclic_of_extends {store later : Store} (h : later.Stacked store.size)
    (hclosed : store.Closed) (hacyclic : store.Acyclic) (hext : store.Extends later) :
    later.Acyclic := by
  intro i hi
  obtain ⟨k, hik, hki⟩ := Relation.TransGen.head'_iff.1 hi
  by_cases hlt : i < store.size
  · have hshows := hext.shows hlt hik
    have hk : k < store.size := hclosed.lt_size_of_reaches hlt (.single hshows)
    exact hacyclic i (.head' hshows (hclosed.reaches_of_extends hext hk hki))
  · obtain ⟨hstart, hlt'⟩ := h i (by omega) k hik
    have hle := (h.of_reaches hstart hki).2
    omega

theorem stacked_size (store : Store) : store.Stacked store.size := by
  intro i hi j hj
  exact absurd hj.lt_size (by omega)

theorem Stacked.add {store : Store} {start : Nat} (h : store.Stacked start) {s : Statement}
    (hs : ∀ q ∈ s.shown, start ≤ q.index ∧ q.index < store.size) :
    (store.add s).Stacked start := by
  rintro i hi j ⟨t, ht, q, hq, rfl⟩
  by_cases hlt : i < store.size
  · rw [(extends_add store s).getElem?_eq hlt] at ht
    exact h i hi q.index ⟨t, ht, q, hq, rfl⟩
  · have hsize : i = store.size := by
      have := (List.getElem?_eq_some_iff.1 ht).1
      have hadd := size_add store s
      rw [size] at hadd
      omega
    have hts : t = s := by
      rw [hsize, Store.add, size, List.getElem?_concat_length] at ht
      exact (Option.some.inj ht).symm
    rw [hts] at hq
    rw [hsize]
    exact hs q hq

/-! ## Copies -/

/-- Statements are typed, and those that are new show only new ones that were made before. -/
structure Copying (start : Nat) (store : Store) : Prop where
  typed : ∀ s ∈ store.statements, s.Typed
  stacked : store.Stacked start
  start_le : start ≤ store.size

theorem ends_clone_copying {store : Store} (htyped : ∀ s ∈ store.statements, s.Typed)
    (r : Ref) :
    Ends (clone r) store (fun t => Copying store.size t ∧ store.Extends t)
      fun twin t => twin.variant = r.variant ∧ store.size ≤ twin.index ∧ twin.index < t.size := by
  refine ends_clone (P := Copying store.size) (Q := fun r q t =>
    q.variant = r.variant ∧ store.size ≤ q.index ∧ q.index < t.size) ?_ ?_ r store
    ⟨htyped, store.stacked_size, Nat.le_refl _⟩
  · rintro r q t later hext ⟨hvariant, hstart, hlt⟩
    exact ⟨hvariant, hstart, hlt.trans_le hext.size_le⟩
  · intro t r s columns branches ht hs hcolumns hbranches
    have hts : s.Typed := ht.typed s (List.mem_of_getElem? hs)
    have hshown := hts.forall_mem_shown_copy
      (hcolumns.imp fun _ _ h => h.imp fun _ _ hq => hq.2)
      (hbranches.imp fun _ _ h => h.imp fun _ _ hq => hq.2)
    have hcopy := hts.copy (hcolumns.imp fun _ _ h => h.imp fun _ _ hq => hq.1)
      (hbranches.imp fun _ _ h => h.imp fun _ _ hq => hq.1)
    rw [size_add]
    refine ⟨⟨?_, ht.stacked.add hshown, by rw [size_add]; exact Nat.le_succ_of_le ht.start_le⟩,
      rfl, ht.start_le, Nat.lt_succ_self _⟩
    intro u hu
    rcases List.mem_append.1 hu with hu | hu
    · exact ht.typed u hu
    · rw [List.mem_singleton.1 hu]
      exact hcopy

private theorem returns_cloneColumn {clone : Ref → Run Store Ref} {v : Value} {store : Store}
    {P : Store → Prop} (hP : P store)
    (h : ∀ q, v.subselect? = some q → Returns (clone q) store fun _ => P) :
    Returns (cloneColumn clone v) store fun _ => P := by
  cases hsub : v.subselect? with
  | none =>
    simp only [cloneColumn, hsub]
    exact ⟨v, rfl, hP⟩
  | some q =>
    simp only [cloneColumn, hsub]
    change Returns (clone q >>= fun twin => pure (Value.statement twin)) store _
    exact (h q hsub).bind fun twin t ht => ⟨_, rfl, ht⟩

private theorem returns_cloneBranch {clone : Ref → Run Store Ref} {q : Ref} {store : Store}
    {P : Store → Prop} (h : Returns (clone q) store fun _ => P) :
    Returns (cloneBranch clone (.statement q)) store fun _ => P := by
  change Returns (clone q >>= fun twin => pure (Value.statement twin)) store _
  exact h.bind fun twin t ht => ⟨_, rfl, ht⟩

/-- A statement can be copied within a depth that bounds it, where a statement that is bounded is
there, its branches are statements, and its parts are bounded by less. -/
theorem returns_cloneWithin_of_bounded {store : Store} {B : Nat → Ref → Prop}
    (hB : ∀ {n r}, B n r → ∃ m s, n = m + 1 ∧ store.get? r = some s ∧
      (∀ q ∈ s.subselects, B m q) ∧ ∀ v ∈ s.branches, ∃ q, v = .statement q ∧ B m q)
    {depth : Nat} {r : Ref} (hr : B depth r) {later : Store} (hext : store.Extends later) :
    Returns (cloneWithin depth r) later fun _ => store.Extends := by
  induction depth generalizing r later with
  | zero =>
    obtain ⟨m, s, hm, -⟩ := hB hr
    cases hm
  | succ depth ih =>
    obtain ⟨m, s, hm, hs, hsubselects, hbranches⟩ := hB hr
    obtain rfl := Nat.succ.inj hm
    have hcolumn : ∀ v ∈ s.columns, ∀ t, store.Extends t →
        Returns (cloneColumn (cloneWithin depth) v) t fun _ => store.Extends := by
      intro v hv t ht
      refine returns_cloneColumn ht ?_
      intro q hq
      exact ih (hsubselects q (List.mem_filterMap.2 ⟨v, hv, hq⟩)) ht
    have hbranch : ∀ v ∈ s.branches, ∀ t, store.Extends t →
        Returns (cloneBranch (cloneWithin depth) v) t fun _ => store.Extends := by
      intro v hv t ht
      obtain ⟨q, rfl, hq⟩ := hbranches v hv
      exact returns_cloneBranch (ih hq ht)
    rw [Returns, run_cloneWithin_succ (hext.get?_of_eq_some hs)]
    refine (returns_mapM hcolumn hext).bind ?_
    intro columns t ht
    refine (returns_mapM hbranch ht).bind ?_
    intro branches u hu
    exact ⟨⟨r.variant, u.size⟩, rfl, hu.trans (extends_add u _)⟩

/-- A statement can be copied where its parts, at most so deep, are there and all branches are
statements. -/
theorem returns_cloneWithin_of_branches {store : Store} (hclosed : store.Closed)
    (hbranches : ∀ s ∈ store.statements, ∀ v ∈ s.branches, ∃ r, v = .statement r) {depth : Nat}
    {r : Ref}
    (hw : store.Within depth r.index) (hr : r.index < store.size) {later : Store}
    (hext : store.Extends later) :
    Returns (cloneWithin depth r) later fun _ => store.Extends := by
  refine returns_cloneWithin_of_bounded (B := fun n r => store.Within n r.index ∧
    r.index < store.size) ?_ ⟨hw, hr⟩ hext
  rintro n r ⟨hw, hr⟩
  cases n with
  | zero => exact hw.elim
  | succ n =>
    obtain ⟨s, hs⟩ : ∃ s, store.get? r = some s := ⟨_, List.getElem?_eq_getElem hr⟩
    have hmem : s ∈ store.statements := List.mem_of_getElem? hs
    have hshown : ∀ q ∈ s.shown, store.Within n q.index ∧ q.index < store.size :=
      fun q hq => ⟨hw _ (shows_of_get? hs hq), hclosed s hmem q hq⟩
    refine ⟨n, s, rfl, hs, ?_, ?_⟩
    · intro q hq
      exact hshown q (Statement.mem_shown_of_mem_subselects hq)
    · intro v hv
      obtain ⟨q, rfl⟩ := hbranches s hmem v hv
      exact ⟨q, rfl, hshown q (Statement.mem_shown_of_mem_branches hv)⟩

/-- A statement can be copied where its parts, at most so deep, are there and typed. -/
theorem returns_cloneWithin {store : Store} (hclosed : store.Closed)
    (htyped : ∀ s ∈ store.statements, s.Typed) {depth : Nat} {r : Ref}
    (hw : store.Within depth r.index) (hr : r.index < store.size) {later : Store}
    (hext : store.Extends later) :
    Returns (cloneWithin depth r) later fun _ => store.Extends :=
  returns_cloneWithin_of_branches hclosed (fun s hs => (htyped s hs).branches) hw hr hext

/-! ## Calls on either side -/

/-- A copy and the statements that were there before are separate: the copy consists of new
statements, and no calls on statements of one side, whatever they hand over, show on the other. -/
structure Separate (store copies : Store) (twin : Ref) : Prop where
  fresh : ∀ j, copies.Reaches twin.index j → store.size ≤ j ∧ j < copies.size
  view_twin : ∀ actions : List Action,
    (∀ q c, .call q c ∈ actions → q.index < store.size ∨ copies.size ≤ q.index) →
    (copies.after actions).view twin = copies.view twin
  view_old : ∀ actions : List Action, (∀ q c, .call q c ∈ actions → store.size ≤ q.index) →
    ∀ q : Ref, q.index < store.size → (copies.after actions).view q = store.view q

/-- A new statement is separate from all that was there, where new statements show only new ones. -/
theorem separate_of_stacked {store copies : Store} (hclosed : store.Closed)
    (hacyclic : store.Acyclic) (hext : store.Extends copies) (hstacked : copies.Stacked store.size)
    {twin : Ref} (hstart : store.size ≤ twin.index) (hlt : twin.index < copies.size) :
    Separate store copies twin := by
  have hfresh : ∀ j, copies.Reaches twin.index j → store.size ≤ j ∧ j < copies.size := by
    intro j hj
    obtain ⟨hle, hle'⟩ := hstacked.of_reaches hstart hj
    exact ⟨hle, hle'.trans_lt hlt⟩
  refine ⟨hfresh, ?_, ?_⟩
  · intro actions hactions
    have hw : copies.Within (copies.size + 1) twin.index :=
      (hstacked.within hstart).mono (by omega)
    refine view_congr hw (size_le_after copies actions) ?_
    intro j hj
    obtain ⟨hle, hlt⟩ := hfresh j hj
    refine getElem?_after hlt ?_
    intro q c hc
    have := hactions q c hc
    omega
  · intro actions hactions q hq
    have hle : store.size ≤ (copies.after actions).size :=
      hext.size_le.trans (size_le_after copies actions)
    refine view_congr (within_of_acyclic hacyclic q.index) hle ?_
    intro j hj
    have hj' : j < store.size := hclosed.lt_size_of_reaches hq hj
    rw [getElem?_after (hj'.trans_le hext.size_le) ?_, hext.getElem?_eq hj']
    intro p c hc
    have := hactions p c hc
    omega

/-- Any statement of a reachable store without cycles, where all statements are typed, can be
copied, and its copy is separate from all that was there. -/
theorem separate_clone {store : Store} (hreachable : store.Reachable) (hacyclic : store.Acyclic)
    (htyped : ∀ s ∈ store.statements, s.Typed) {r : Ref} (hr : r.index < store.size) :
    ∃ copies events twin, (clone r).run store = ⟨copies, events, .ok twin⟩ ∧
      twin.variant = r.variant ∧ Separate store copies twin := by
  have hclosed := hreachable.closed
  obtain ⟨twin, htwin, -⟩ := returns_cloneWithin hclosed htyped
    (within_of_acyclic hacyclic r.index) hr (.refl store)
  rw [← run_clone_of_ok htwin] at htwin
  obtain ⟨⟨hcopying, hext⟩, hends⟩ := ends_clone_copying htyped r
  obtain ⟨hvariant, hstart, hlt⟩ := hends twin htwin
  refine ⟨((clone r).run store).state, ((clone r).run store).events, twin, ?_, hvariant,
    separate_of_stacked hclosed hacyclic hext hcopying.stacked hstart hlt⟩
  rw [← htwin]

/-- A query with a subselect that is a column twice, and with a branch. -/
def nested : Store :=
  ⟨[.ofSource (.text "u") .default, .blank (.text "s") .default,
    { Statement.ofSource (.text "t") .default with
      columns := [.text "a", .statement ⟨.subselect, 1⟩, .statement ⟨.subselect, 1⟩]
      branches := [.statement ⟨.query, 0⟩] }]⟩

theorem reachable_nested : nested.Reachable := by
  have hbranch := Reachable.empty.perform (a := .query (.text "u") .default) (by decide)
  have hcolumn := hbranch.perform (a := .subselect (.text "s") .default) (by decide)
  have hquery := hcolumn.perform (a := .query (.text "t") .default) (by decide)
  have hcolumns := hquery.perform (a := .call ⟨.query, 2⟩ (.columns
    [.text "a", .statement ⟨.subselect, 1⟩, .statement ⟨.subselect, 1⟩] .null)) (by decide)
  exact hcolumns.perform (a := .call ⟨.query, 2⟩ (.union (.statement ⟨.query, 0⟩))) (by decide)

theorem stacked_nested : nested.Stacked 0 := by
  rintro i - j ⟨s, hs, q, hq, rfl⟩
  refine ⟨Nat.zero_le _, ?_⟩
  match i with
  | 0 => cases hs; cases hq
  | 1 => cases hs; cases hq
  | 2 =>
    cases hs
    revert q
    decide
  | _ + 3 => cases hs

theorem typed_nested : ∀ s ∈ nested.statements, s.Typed := by
  simp only [nested, List.forall_mem_cons]
  refine ⟨Statement.typed_ofSource _ _, Statement.typed_blank (.inr ⟨"s", rfl⟩) _,
    ⟨.inl rfl, ?_, ?_⟩, by simp⟩
  · simp only [List.forall_mem_cons]
    exact ⟨.inl ⟨"a", rfl⟩, .inr ⟨_, rfl⟩, .inr ⟨_, rfl⟩, by simp⟩
  · simp only [List.forall_mem_cons]
    exact ⟨⟨_, rfl⟩, by simp⟩

theorem separate_clone_nested :
    nested.Reachable ∧ nested.Acyclic ∧ (∀ s ∈ nested.statements, s.Typed) ∧
      2 < nested.size ∧
      ∃ copies events twin, (clone ⟨.query, 2⟩).run nested = ⟨copies, events, .ok twin⟩ ∧
        twin.variant = .query ∧ Separate nested copies twin :=
  ⟨reachable_nested, stacked_nested.acyclic, typed_nested, by decide,
    separate_clone reachable_nested stacked_nested.acyclic typed_nested (by decide)⟩

end Store

end BoundQuery
