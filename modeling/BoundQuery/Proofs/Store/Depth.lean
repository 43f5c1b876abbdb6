import BoundQuery.Proofs.Statement.Unwritten
import BoundQuery.Proofs.Store.Acyclic
import BoundQuery.Proofs.Store.Compiled
import BoundQuery.Proofs.Store.Separate
import Mathlib.Order.Lattice.Nat

/-!
# How deep statements go

Where no statement is a part of itself, every place has a height, and what is shown is lower than
what shows it. Writing, compiling and copying a statement go down along the heights. So they come to
an end, and going deeper than the height of the statement gives the same. Copying adds statements on
its way down; these are behind all others and leave the heights of the others as they are.

## Main definitions

* `Run.Settles`: two operations do the same and come to an end.
* `Store.height`: how deep the statements below a place go.
* `Store.Terminates`: writing, compiling and copying a statement come to an end.

## Main statements

* `Store.height_lt_of_shows`: what is shown is lower.
* `Store.settles_cloneWithin`: copying does not depend on how deep it may go.
* `Store.acyclic_kept_and_terminates`: calls and copies make no cycle, and where there is none,
  everything comes to an end.
-/

namespace BoundQuery

namespace Run

variable {σ α β : Type}

/-- Two operations do the same, and do not go on without end; the state that they leave satisfies
`P`. -/
structure Settles (x y : Run σ α) (s : σ) (P : σ → Prop) : Prop where
  run_eq : x.run s = y.run s
  state : P (y.run s).state
  result_ne : (y.run s).result ≠ .error .cyclic

theorem settles_pure {a : α} {s : σ} {P : σ → Prop} (hP : P s) :
    Settles (pure a) (pure a) s P := ⟨rfl, hP, by simp⟩

theorem Settles.bind {x y : Run σ α} {f g : α → Run σ β} {s : σ} {P : σ → Prop}
    (hx : Settles x y s P) (hf : ∀ a t, (y.run s).result = .ok a → P t → Settles (f a) (g a) t P) :
    Settles (x >>= f) (y >>= g) s P := by
  rcases ho : y.run s with ⟨t, events, failure | a⟩
  · have hstate := hx.state
    have hne := hx.result_ne
    rw [ho] at hstate hne
    refine ⟨?_, ?_, ?_⟩
    · rw [run_bind, run_bind, hx.run_eq, ho, follow_error, follow_error]
    · rw [run_bind, ho, follow_error]
      exact hstate
    · rw [run_bind, ho, follow_error]
      exact fun h => hne (by simpa using h)
  · have hstate := hx.state
    rw [ho] at hstate
    have hnext := hf a t (by rw [ho]) hstate
    refine ⟨?_, ?_, ?_⟩
    · rw [run_bind, run_bind, hx.run_eq, ho, follow_ok, follow_ok, hnext.run_eq]
    · rw [run_bind, ho, follow_ok]
      exact hnext.state
    · rw [run_bind, ho, follow_ok]
      exact hnext.result_ne

theorem Settles.of_run_eq {x x' y y' : Run σ α} {s : σ} {P : σ → Prop} (hx : x.run s = x'.run s)
    (hy : y.run s = y'.run s) (h : Settles x' y' s P) : Settles x y s P :=
  ⟨by rw [hx, hy, h.run_eq], by rw [hy]; exact h.state, by rw [hy]; exact h.result_ne⟩

/-- A traversal settles if each of its steps does. -/
theorem settles_mapM {f g : α → Run σ β} {P : σ → Prop} {l : List α}
    (hf : ∀ a ∈ l, ∀ s, P s → Settles (f a) (g a) s P) {s : σ} (hs : P s) :
    Settles (l.mapM f) (l.mapM g) s P := by
  induction l generalizing s with
  | nil => exact settles_pure hs
  | cons a rest ih =>
    rw [List.mapM_cons, List.mapM_cons]
    refine (hf a List.mem_cons_self s hs).bind ?_
    intro b t _ ht
    refine (ih (fun a' ha' => hf a' (List.mem_cons_of_mem _ ha')) ht).bind ?_
    intro bs u _ hu
    exact settles_pure hu

end Run

namespace Store

open Run

variable {store : Store}

/-! ## Heights -/

/-- How deep the statements below a place go: the least bound of the depth. -/
noncomputable def height (store : Store) (i : Nat) : Nat := sInf {n | store.Within n i}

theorem Within.height_le {n i : Nat} (h : store.Within n i) : store.height i ≤ n := Nat.sInf_le h

theorem Acyclic.within_height (h : store.Acyclic) (i : Nat) : store.Within (store.height i) i :=
  Nat.sInf_mem (s := {n | store.Within n i}) ⟨store.size + 1, within_of_acyclic h i⟩

theorem Acyclic.height_le_size (h : store.Acyclic) (i : Nat) : store.height i ≤ store.size + 1 :=
  (within_of_acyclic h i).height_le

/-- What is shown is lower than what shows it. -/
theorem Acyclic.height_lt_of_shows (h : store.Acyclic) {i j : Nat} (hij : store.Shows i j) :
    store.height j < store.height i := by
  have hi := h.within_height i
  cases hn : store.height i with
  | zero =>
    rw [hn] at hi
    exact hi.elim
  | succ n =>
    rw [hn] at hi
    exact Nat.lt_succ_of_le (hi j hij).height_le

/-- The recursion from statements to what they show is well-founded. -/
theorem Acyclic.wellFounded (h : store.Acyclic) : WellFounded fun j i => store.Shows i j :=
  Subrelation.wf (fun hij => h.height_lt_of_shows hij) (measure store.height).wf

/-- What is added behind all statements leaves the bounds of the depth of those that are there. -/
theorem Closed.within_iff_of_extends (h : store.Closed) {later : Store}
    (hext : store.Extends later) {n i : Nat} (hi : i < store.size) :
    later.Within n i ↔ store.Within n i := by
  induction n generalizing i with
  | zero => exact Iff.rfl
  | succ n ih =>
    refine forall_congr' fun j => ⟨?_, ?_⟩
    · intro hj hij
      exact (ih (h.lt_size_of_reaches hi (.single hij))).1 (hj (hij.of_extends hext))
    · intro hj hij
      have hold := hext.shows hi hij
      exact (ih (h.lt_size_of_reaches hi (.single hold))).2 (hj hold)

theorem Closed.height_of_extends (h : store.Closed) {later : Store} (hext : store.Extends later)
    {i : Nat} (hi : i < store.size) : later.height i = store.height i := by
  simp only [height, h.within_iff_of_extends hext hi]

/-! ## Texts and compiled statements -/

/-- Writing a statement comes to an end within a bound of the depth. -/
theorem textWithin_ne_cyclic {n : Nat} {r : Ref} (hw : store.Within n r.index) :
    store.textWithin n r ≠ .error .cyclic := by
  induction n generalizing r with
  | zero => exact hw.elim
  | succ n ih =>
    intro h
    cases hs : store.get? r with
    | none =>
      rw [textWithin_succ_of_none hs] at h
      cases h
    | some s =>
      rw [textWithin_succ hs] at h
      rcases Statement.text_eq_error h with h | ⟨q, hq, h⟩
      · exact h.ne_cyclic rfl
      · exact ih (hw _ (shows_of_get? hs hq)) h

/-- Compiling a statement comes to an end within a bound of the depth. -/
theorem compileWithin_ne_cyclic (hacyclic : store.Acyclic) {n : Nat} {r : Ref}
    (hw : store.Within n r.index) : store.compileWithin n r ≠ .error .cyclic := by
  induction n generalizing r with
  | zero => exact hw.elim
  | succ n ih =>
    intro h
    cases hs : store.get? r with
    | none =>
      rw [compileWithin_succ_of_none hs] at h
      cases h
    | some s =>
      rw [compileWithin_succ hs] at h
      rcases Statement.compileFrom_eq_error h with ⟨q, hq, h⟩ | ⟨v, -, h⟩ | h
      · exact ih (hw _ (shows_of_get? hs (Statement.mem_shown_of_mem_owned hq))) h
      · cases v <;> cases h
      · exact textWithin_ne_cyclic (within_of_acyclic hacyclic r.index) h

/-! ## Copies -/

/-- Copying a statement does not depend on how deep it may go, once that is deep enough, and comes
to an end. It starts from a later store, to which copies may have been added already. -/
theorem settles_cloneWithin (hclosed : store.Closed) {n m : Nat} {r : Ref}
    (hw : store.Within n r.index) (hle : n ≤ m) (hr : r.index < store.size) {later : Store}
    (hext : store.Extends later) :
    Settles (cloneWithin m r) (cloneWithin n r) later store.Extends := by
  induction n generalizing m r later with
  | zero => exact hw.elim
  | succ n ih =>
    obtain ⟨m, rfl⟩ : ∃ k, m = k + 1 := ⟨m - 1, by omega⟩
    obtain ⟨s, hs⟩ : ∃ s, store.get? r = some s := ⟨_, List.getElem?_eq_getElem hr⟩
    have hclone : ∀ q ∈ s.shown, ∀ t, store.Extends t →
        Settles (cloneWithin m q) (cloneWithin n q) t store.Extends := by
      intro q hq t ht
      have hmem := hclosed s (List.mem_of_getElem? hs) q hq
      exact ih (hw _ (shows_of_get? hs hq)) (by omega) hmem ht
    have hstatement : ∀ q ∈ s.shown, ∀ t, store.Extends t →
        Settles (Value.statement <$> cloneWithin m q) (Value.statement <$> cloneWithin n q) t
          store.Extends := by
      intro q hq t ht
      exact (hclone q hq t ht).bind fun twin u _ hu => settles_pure hu
    have hcolumn : ∀ v ∈ s.columns, ∀ t, store.Extends t →
        Settles (cloneColumn (cloneWithin m) v) (cloneColumn (cloneWithin n) v) t
          store.Extends := by
      intro v hv t ht
      unfold cloneColumn
      cases hq : v.subselect? with
      | none => exact settles_pure ht
      | some q =>
        have hsub : q ∈ s.subselects := List.mem_filterMap.2 ⟨v, hv, hq⟩
        exact hstatement q (Statement.mem_shown_of_mem_subselects hsub) t ht
    have hbranch : ∀ v ∈ s.branches, ∀ t, store.Extends t →
        Settles (cloneBranch (cloneWithin m) v) (cloneBranch (cloneWithin n) v) t
          store.Extends := by
      intro v hv t ht
      cases v with
      | statement q => exact hstatement q (Statement.mem_shown_of_mem_branches hv) t ht
      | _ => exact ⟨rfl, ht, by simp [cloneBranch, Value.branch]⟩
    have hs' := hext.get?_of_eq_some hs
    refine Settles.of_run_eq (run_cloneWithin_succ hs' m) (run_cloneWithin_succ hs' n) ?_
    refine (settles_mapM hcolumn hext).bind ?_
    intro columns t _ ht
    refine (settles_mapM hbranch ht).bind ?_
    intro branches u _ hu
    exact ⟨rfl, hu.trans (extends_add u _), by simp⟩

/-! ## Termination -/

/-- Writing, compiling and copying a statement go down along the heights and come to an end. -/
structure Terminates (store : Store) (r : Ref) : Prop where
  text_eq : ∀ s, store.get? r = some s → store.text r = s.text store.text r.variant
  textWithin_eq : ∀ depth, store.height r.index ≤ depth →
    store.textWithin depth r = store.text r
  text_ne : store.text r ≠ .error .cyclic
  compile_eq : ∀ s, store.get? r = some s →
    store.compile r = s.compileFrom store.compile (store.text r)
  compileWithin_eq : ∀ depth, store.height r.index ≤ depth →
    store.compileWithin depth r = store.compile r
  compile_ne : store.compile r ≠ .error .cyclic
  clone_eq : ∀ s, store.get? r = some s → (cloneWithin (store.size + 1) r).run store =
    (cloneFrom (cloneWithin (store.size + 1)) r s).run store
  cloneWithin_eq : ∀ depth, store.height r.index ≤ depth →
    (cloneWithin depth r).run store = (cloneWithin (store.size + 1) r).run store
  clone_ne : ((clone r).run store).result ≠ .error .cyclic
  clone_ok : (∀ s ∈ store.statements, ∀ v ∈ s.branches, ∃ q, v = .statement q) →
    ∃ twin, ((clone r).run store).result = .ok twin

theorem Acyclic.terminates (h : store.Acyclic) (hclosed : store.Closed) {r : Ref}
    (hr : r.index < store.size) : store.Terminates r := by
  have hheight := h.within_height r.index
  have hsize := within_of_acyclic h r.index
  have hle := h.height_le_size r.index
  have hclone := fun depth (hdepth : store.height r.index ≤ depth) =>
    settles_cloneWithin hclosed hheight hdepth hr (.refl store)
  constructor
  case text_eq => exact fun s hs => h.text_eq hs
  case textWithin_eq =>
    intro depth hdepth
    rw [text, textWithin_of_within hheight hdepth, textWithin_of_within hheight hle]
  case text_ne => exact textWithin_ne_cyclic hsize
  case compile_eq => exact fun s hs => h.compile_eq hs
  case compileWithin_eq =>
    intro depth hdepth
    rw [compile, compileWithin_of_within hheight hdepth, compileWithin_of_within hheight hle]
  case compile_ne => exact compileWithin_ne_cyclic h hsize
  case clone_eq =>
    intro s hs
    rw [← run_cloneWithin_succ hs, (hclone _ hle).run_eq, (hclone _ (Nat.le_succ_of_le hle)).run_eq]
  case cloneWithin_eq =>
    intro depth hdepth
    rw [(hclone depth hdepth).run_eq, (hclone _ hle).run_eq]
  case clone_ne =>
    rw [result_clone, (hclone _ hle).run_eq]
    exact (hclone _ hle).result_ne
  case clone_ok =>
    intro hbranches
    obtain ⟨twin, htwin, -⟩ :=
      returns_cloneWithin_of_branches hclosed hbranches hsize hr (.refl store)
    exact ⟨twin, (result_clone r store).trans htwin⟩

/-- A call that hands over nothing that takes in its statement makes no cycle, and neither does
copying, which leaves all heights as they are. Where there is no cycle, what is shown is lower than
what shows it, and writing, compiling and copying any statement come to an end: they are recursions
from statements to what is shown. -/
theorem acyclic_kept_and_terminates (hreachable : store.Reachable) (hacyclic : store.Acyclic) :
    (∀ r c, (∀ q ∈ c.shown, ¬ store.Reaches q.index r.index) →
      ((call r c).run store).state.Acyclic) ∧
    (∀ r, ((clone r).run store).state.Acyclic ∧
      ∀ i < store.size, ((clone r).run store).state.height i = store.height i) ∧
    (∀ i j, store.Shows i j → store.height j < store.height i) ∧
    (WellFounded fun j i => store.Shows i j) ∧
    ∀ r, r.index < store.size → store.Terminates r := by
  have hclosed := hreachable.closed
  refine ⟨?_, ?_, ?_, hacyclic.wellFounded, ?_⟩
  · intro r c hc
    exact hacyclic.call (fun s hs => hreachable.balanced hs) hc
  · intro r
    exact ⟨hacyclic.clone hclosed r, fun i hi =>
      hclosed.height_of_extends (extends_clone r store) hi⟩
  · intro i j hij
    exact hacyclic.height_lt_of_shows hij
  · intro r hr
    exact hacyclic.terminates hclosed hr

/-- A statement that shows nothing takes in itself alone. -/
theorem not_reaches_of_shown_eq_nil {r : Ref} {s : Statement} (hs : store.get? r = some s)
    (hshown : s.shown = []) {j : Nat} (hne : r.index ≠ j) : ¬ store.Reaches r.index j := by
  intro h
  rcases Relation.ReflTransGen.cases_head h with h | ⟨k, ⟨t, ht, q, hq, -⟩, -⟩
  · exact hne h
  · obtain rfl : s = t := Option.some.inj (hs.symm.trans ht)
    rw [hshown] at hq
    cases hq

theorem formed_nested : nested.Formed := by
  have hbranch := Formed.empty.perform (a := .query (.text "u") .default) (by decide) nofun
  have hcolumn := hbranch.perform (a := .subselect (.text "s") .default) (by decide) nofun
  have hquery := hcolumn.perform (a := .query (.text "t") .default) (by decide) nofun
  have hcolumns := hquery.perform (a := .call ⟨.query, 2⟩ (.columns
    [.text "a", .statement ⟨.subselect, 1⟩, .statement ⟨.subselect, 1⟩] .null)) (by decide) ?_
  · refine hcolumns.perform (a := .call ⟨.query, 2⟩ (.union (.statement ⟨.query, 0⟩))) (by decide) ?_
    intro r c h q hq
    cases h
    cases List.mem_singleton.1 hq
    exact not_reaches_of_shown_eq_nil (r := ⟨.query, 0⟩) rfl rfl (by decide)
  · intro r c h q hq
    cases h
    obtain rfl : q = ⟨.subselect, 1⟩ := by
      revert q
      decide
    exact not_reaches_of_shown_eq_nil (r := ⟨.subselect, 1⟩) rfl rfl (by decide)

/-- A branch takes on a subselect after it was added, and the query that it was added to is
copied. -/
theorem acyclic_kept_and_terminates_nested :
    nested.Reachable ∧ nested.Acyclic ∧ ¬ nested.Reaches 1 0 ∧ nested.Shows 2 0 ∧
      ((call ⟨.query, 0⟩ (.columns [.statement ⟨.subselect, 1⟩] .null)).run nested).state.Acyclic ∧
      ((clone ⟨.query, 2⟩).run nested).state.Acyclic ∧
      nested.height 0 < nested.height 2 ∧ nested.Terminates ⟨.query, 2⟩ ∧
      ∃ twin, ((clone ⟨.query, 2⟩).run nested).result = .ok twin := by
  have hreachable := formed_nested.reachable
  have hacyclic := formed_nested.acyclic
  have hback : ¬ nested.Reaches 1 0 :=
    not_reaches_of_shown_eq_nil (r := ⟨.subselect, 1⟩) rfl rfl (by decide)
  have hshows : nested.Shows 2 0 := ⟨_, rfl, ⟨.query, 0⟩, by decide, rfl⟩
  obtain ⟨hcall, hclone, hheight, -, hterminates⟩ :=
    acyclic_kept_and_terminates hreachable hacyclic
  refine ⟨hreachable, hacyclic, hback, hshows, hcall _ _ ?_, (hclone _).1, hheight 2 0 hshows,
    hterminates ⟨.query, 2⟩ (by decide), ?_⟩
  · intro q hq
    cases List.mem_singleton.1 hq
    exact hback
  · exact (hterminates ⟨.query, 2⟩ (by decide)).clone_ok fun s hs => (typed_nested s hs).branches

end Store

end BoundQuery
