import BoundQuery.Proofs.Store.Borrowed

/-!
# What compiles

Compiling goes down to what a statement owns, and its text takes all of that in. So where branches
are statements and no statement is a part of itself, a statement whose text can be written compiles
to this text. The parts are compiled before the text is written, so of several failures another one
may come first; compiling has none of its own.

## Main statements

* `Statement.compileFrom_eq_ok`, `Statement.compileFrom_eq_error`: what a statement compiles to, and
  what keeps it from compiling.
* `Store.exists_compile_of_text`: a statement whose text can be written compiles.
* `Store.compiles_iff_written`: a statement compiles exactly if its text can be written.
-/

namespace BoundQuery

namespace Statement

variable {s : Statement}

/-- Where branches are statements, these are compiled one after the other. -/
theorem mapM_branches (hbranches : ∀ v ∈ s.branches, ∃ r, v = .statement r) {β : Type}
    (f : Ref → Except Failure β) (request : String) :
    (s.branches.mapM fun v => do f (← v.branch request)) =
      (s.branches.filterMap Value.statement?).mapM f := by
  generalize s.branches = branches at hbranches
  induction branches with
  | nil => rfl
  | cons v rest ih =>
    obtain ⟨r, rfl⟩ := hbranches v List.mem_cons_self
    have ih := ih fun w hw => hbranches w (List.mem_cons_of_mem _ hw)
    rw [List.mapM_cons, ih]
    change _ = (r :: rest.filterMap Value.statement?).mapM f
    rw [List.mapM_cons]
    rfl

/-- What a statement compiles to is its text, with the values of what it owns around its own. -/
theorem compileFrom_eq_ok (hbranches : ∀ v ∈ s.branches, ∃ r, v = .statement r)
    {compile : Ref → Except Failure Compiled} {text : Except Failure String} {c : Compiled} :
    s.compileFrom compile text = .ok c ↔ ∃ columns branches,
      s.subselects.mapM compile = .ok columns ∧
      (s.branches.filterMap Value.statement?).mapM compile = .ok branches ∧
      text = .ok c.sql ∧
      c.params = columns.flatMap (·.params) ++ s.boundInOrder ++ branches.flatMap (·.params) := by
  rw [compileFrom, mapM_branches hbranches]
  constructor
  · intro h
    obtain ⟨columns, hcolumns, h⟩ := Result.bind_eq_ok.1 h
    obtain ⟨branches, hbranches, h⟩ := Result.bind_eq_ok.1 h
    obtain ⟨sql, hsql, h⟩ := Result.bind_eq_ok.1 h
    cases h
    exact ⟨columns, branches, hcolumns, hbranches, hsql, rfl⟩
  · rintro ⟨columns, branches, hcolumns, hbranches, hsql, hparams⟩
    rw [hcolumns, hbranches, hsql]
    change Except.ok _ = _
    rw [← hparams]

/-- What a statement compiles to fails like what it owns, like a branch that is no statement, or
like its text. -/
theorem compileFrom_eq_error {compile : Ref → Except Failure Compiled}
    {text : Except Failure String} {failure : Failure}
    (h : s.compileFrom compile text = .error failure) :
    (∃ q ∈ s.owned, compile q = .error failure) ∨
      (∃ v ∈ s.branches, v.branch "build" = .error failure) ∨ text = .error failure := by
  rcases Result.bind_eq_error.1 h with h | ⟨columns, -, h⟩
  · obtain ⟨q, hq, h⟩ := Result.mapM_eq_error h
    exact .inl ⟨q, List.mem_append_left _ hq, h⟩
  rcases Result.bind_eq_error.1 h with h | ⟨branches, -, h⟩
  · obtain ⟨v, hv, h⟩ := Result.mapM_eq_error h
    rcases Result.bind_eq_error.1 h with h | ⟨q, hq, h⟩
    · exact .inr (.inl ⟨v, hv, h⟩)
    · rw [Value.branch_eq_ok] at hq
      rw [hq] at hv
      exact .inl ⟨q, mem_owned.2 (.inr hv), h⟩
  rcases Result.bind_eq_error.1 h with h | ⟨sql, -, h⟩
  · exact .inr (.inr h)
  · cases h

/-- The text of a statement takes in those that it owns. -/
theorem exists_text_of_mem_owned {f : Resolver} {variant : Variant} {t : String}
    (ht : s.text f variant = .ok t) {q : Ref} (hq : q ∈ s.owned) : ∃ u, f q = .ok u := by
  obtain ⟨body, hbody⟩ : ∃ body, s.body f = .ok body := by
    cases variant with
    | query => exact ⟨t, ht⟩
    | subselect =>
      obtain ⟨body, hbody, -⟩ := Result.bind_eq_ok.1 ht
      exact ⟨body, hbody⟩
  obtain ⟨columns, sources, joins, rows, groupings, groups, orderings, limit, branches, hcolumns,
    -, -, -, -, -, -, -, hbranches, -⟩ := body_eq_ok.1 hbody
  have hdisplay : ∀ {vs : List Value} {xs : List String}, .statement q ∈ vs →
      vs.mapM (·.display f) = .ok xs → ∃ u, f q = .ok u := by
    intro vs xs hv hxs
    obtain ⟨u, -, hu⟩ := exists_mem_of_forall₂ (Result.mapM_eq_ok.1 hxs).flip hv
    exact ⟨u, hu⟩
  rcases mem_owned.1 hq with ⟨hv, -⟩ | hv
  · cases hnames : s.columns with
    | nil =>
      rw [hnames] at hv
      cases hv
    | cons v rest =>
      rw [hnames] at hv hcolumns
      obtain ⟨xs, hxs, -⟩ := Result.bind_eq_ok.1 hcolumns
      exact hdisplay hv hxs
  · obtain ⟨xs, hxs, -⟩ := Result.bind_eq_ok.1 hbranches
    exact hdisplay hv hxs

end Statement

namespace Store

variable {store : Store}

theorem exists_compileWithin_of_text (hacyclic : store.Acyclic)
    (hbranches : ∀ s ∈ store.statements, ∀ v ∈ s.branches, ∃ r, v = .statement r) {n : Nat}
    {r : Ref} (hw : store.Within n r.index) {t : String} (ht : store.text r = .ok t) :
    ∃ c, store.compileWithin n r = .ok c := by
  induction n generalizing r t with
  | zero => exact hw.elim
  | succ n ih =>
    cases hs : store.get? r with
    | none =>
      rw [text, textWithin_succ_of_none hs] at ht
      cases ht
    | some s =>
      have howned : ∀ q ∈ s.owned, ∃ c, store.compileWithin n q = .ok c := by
        intro q hq
        have htext := ht
        rw [hacyclic.text_eq hs] at htext
        obtain ⟨u, hu⟩ := Statement.exists_text_of_mem_owned htext hq
        exact ih (hw _ (shows_of_get? hs (Statement.mem_shown_of_mem_owned hq))) hu
      obtain ⟨columns, hcolumns⟩ := Result.exists_mapM_of_forall
        fun q hq => howned q (List.mem_append_left _ hq)
      obtain ⟨branches, hbranches'⟩ := Result.exists_mapM_of_forall
        fun q hq => howned q (List.mem_append_right _ hq)
      rw [compileWithin_succ hs]
      exact ⟨⟨t, _⟩, (Statement.compileFrom_eq_ok (hbranches s (List.mem_of_getElem? hs))).2
        ⟨columns, branches, hcolumns, hbranches', ht, rfl⟩⟩

/-- A statement whose text can be written compiles to it. -/
theorem exists_compile_of_text (hacyclic : store.Acyclic)
    (hbranches : ∀ s ∈ store.statements, ∀ v ∈ s.branches, ∃ r, v = .statement r) {r : Ref}
    {t : String} (ht : store.text r = .ok t) : ∃ c, store.compile r = .ok c :=
  exists_compileWithin_of_text hacyclic hbranches (within_of_acyclic hacyclic r.index) ht

/-- What compiles at some depth compiles to the same at any greater one. -/
theorem compileWithin_mono {n m : Nat} {r : Ref} {c : Compiled}
    (h : store.compileWithin n r = .ok c) (hle : n ≤ m) : store.compileWithin m r = .ok c := by
  induction n generalizing m r c with
  | zero => cases h
  | succ n ih =>
    obtain ⟨m, rfl⟩ : ∃ k, m = k + 1 := ⟨m - 1, by omega⟩
    cases hs : store.get? r with
    | none =>
      rw [compileWithin_succ_of_none hs] at h
      cases h
    | some s =>
      have hparts : ∀ q d, store.compileWithin n q = .ok d → store.compileWithin m q = .ok d :=
        fun q d hd => ih hd (by omega)
      rw [compileWithin_succ hs] at h ⊢
      obtain ⟨columns, hcolumns, h⟩ := Result.bind_eq_ok.1 h
      obtain ⟨branches, hbranches, h⟩ := Result.bind_eq_ok.1 h
      have hcolumns' := Result.mapM_mono (fun q _ d => hparts q d) hcolumns
      have hbranches' : (s.branches.mapM fun v => do
          store.compileWithin m (← v.branch "build")) = .ok branches := by
        refine Result.mapM_mono ?_ hbranches
        intro v _ d hd
        obtain ⟨q, hq, hd⟩ := Result.bind_eq_ok.1 hd
        exact Result.bind_eq_ok.2 ⟨q, hq, hparts q d hd⟩
      rw [Statement.compileFrom, hcolumns', hbranches']
      exact h

/-- What a statement compiles to is its text, with the values of its subselects, its own values and
those of its branches. -/
theorem compile_eq_ok {r : Ref} {c : Compiled} (h : store.compile r = .ok c) :
    ∃ s columns branches, store.get? r = some s ∧ s.subselects.mapM store.compile = .ok columns ∧
      (s.branches.mapM fun v => do store.compile (← v.branch "build")) = .ok branches ∧
      store.text r = .ok c.sql ∧
      c.params = columns.flatMap (·.params) ++ s.boundInOrder ++ branches.flatMap (·.params) := by
  cases hs : store.get? r with
  | none =>
    rw [compile, compileWithin_succ_of_none hs] at h
    cases h
  | some s =>
    rw [compile, compileWithin_succ hs] at h
    obtain ⟨columns, hcolumns, h⟩ := Result.bind_eq_ok.1 h
    obtain ⟨branches, hbranches, h⟩ := Result.bind_eq_ok.1 h
    obtain ⟨sql, hsql, h⟩ := Result.bind_eq_ok.1 h
    cases h
    have hparts : ∀ q d, store.compileWithin store.size q = .ok d → store.compile q = .ok d :=
      fun q d hd => compileWithin_mono hd (Nat.le_succ _)
    refine ⟨s, columns, branches, rfl, Result.mapM_mono (fun q _ d => hparts q d) hcolumns, ?_,
      hsql, rfl⟩
    refine Result.mapM_mono ?_ hbranches
    intro v _ d hd
    obtain ⟨q, hq, hd⟩ := Result.bind_eq_ok.1 hd
    exact Result.bind_eq_ok.2 ⟨q, hq, hparts q d hd⟩

/-- A statement that does not compile shows one that cannot be written for the same reason. -/
theorem exists_text_of_compileWithin_eq_error
    (hbranches : ∀ s ∈ store.statements, ∀ v ∈ s.branches, ∃ r, v = .statement r) {n : Nat}
    {r : Ref} (hw : store.Within n r.index) {failure : Failure}
    (h : store.compileWithin n r = .error failure) :
    ∃ q : Ref, store.Reaches r.index q.index ∧ store.text q = .error failure := by
  induction n generalizing r with
  | zero => exact hw.elim
  | succ n ih =>
    cases hs : store.get? r with
    | none =>
      rw [compileWithin_succ_of_none hs] at h
      cases h
      exact ⟨r, .refl, textWithin_succ_of_none hs _⟩
    | some s =>
      rw [compileWithin_succ hs] at h
      rcases Statement.compileFrom_eq_error h with ⟨q, hq, h⟩ | ⟨v, hv, h⟩ | h
      · have hshows := shows_of_get? hs (Statement.mem_shown_of_mem_owned hq)
        obtain ⟨p, hp, h⟩ := ih (hw _ hshows) h
        exact ⟨p, .head hshows hp, h⟩
      · obtain ⟨q, rfl⟩ := hbranches s (List.mem_of_getElem? hs) v hv
        cases h
      · exact ⟨r, .refl, h⟩

/-- Where branches are statements and no statement is a part of itself, a statement compiles exactly
if its text can be written, whatever its columns and its other pieces are, and it compiles to this
text. None of its own values is lost on the way: each one is paired with its part, and all of them
stand between those of its subselects and those of its branches. If a statement does not compile,
what it fails with keeps its text, or that of a statement that it takes in, from being written. -/
theorem compiles_iff_written {store : Store} (hreachable : store.Reachable)
    (hacyclic : store.Acyclic)
    (hbranches : ∀ s ∈ store.statements, ∀ v ∈ s.branches, ∃ r, v = .statement r) (r : Ref) :
    ((∃ c, store.compile r = .ok c) ↔ ∃ t, store.text r = .ok t) ∧
    (∀ c, store.compile r = .ok c → store.text r = .ok c.sql ∧
      ∃ s columns branches, store.get? r = some s ∧
        s.subselects.mapM store.compile = .ok columns ∧
        (s.branches.filterMap Value.statement?).mapM store.compile = .ok branches ∧
        c.params = columns.flatMap (·.params) ++ s.boundInOrder ++ branches.flatMap (·.params) ∧
        (s.parts.zip s.bound).map Prod.snd = s.bound ∧ s.boundInOrder.Perm s.bound) ∧
    ∀ failure, store.compile r = .error failure →
      ∃ q : Ref, store.Reaches r.index q.index ∧ store.text q = .error failure := by
  refine ⟨⟨?_, ?_⟩, ?_, ?_⟩
  · rintro ⟨c, hc⟩
    exact ⟨c.sql, text_of_compileWithin hc⟩
  · rintro ⟨t, ht⟩
    exact exists_compile_of_text hacyclic hbranches ht
  · intro c hc
    obtain ⟨s, columns, branches, hs, hcolumns, hbranches', htext, hparams⟩ := compile_eq_ok hc
    have hmem : s ∈ store.statements := List.mem_of_getElem? hs
    have hbalanced := hreachable.balanced hmem
    rw [Statement.mapM_branches (hbranches s hmem)] at hbranches'
    exact ⟨htext, s, columns, branches, hs, hcolumns, hbranches', hparams,
      List.map_snd_zip (Nat.le_of_eq hbalanced.length_parts.symm),
      Statement.boundInOrder_perm hbalanced⟩
  · intro failure h
    exact exists_text_of_compileWithin_eq_error hbranches (within_of_acyclic hacyclic r.index) h

/-- A query whose source is a number, with a subselect as a column, and with a branch whose source
is a truth value. -/
def sourceless : Store :=
  ⟨[.ofSource (.bool true) .default,
    { Statement.blank (.text "s") .default with
      rowConditions := [⟨.and, .comparison .equal "a" (.int 1)⟩]
      bound := [.int 1]
      parts := [.conditions .rows] },
    { Statement.ofSource (.int 1) .default with
      columns := [.statement ⟨.subselect, 1⟩]
      branches := [.statement ⟨.query, 0⟩] }]⟩

theorem reachable_sourceless : sourceless.Reachable := by
  have hbranch := Reachable.empty.perform (a := .query (.bool true) .default) (by decide)
  have hcolumn := hbranch.perform (a := .subselect (.text "s") .default) (by decide)
  have hcondition := hcolumn.perform (a := .call ⟨.subselect, 1⟩
    (.attach .rows .and (.predicate (.comparison .equal "a" (.int 1))))) (by decide)
  have hquery := hcondition.perform (a := .query (.int 1) .default) (by decide)
  have hcolumns := hquery.perform
    (a := .call ⟨.query, 2⟩ (.columns [.statement ⟨.subselect, 1⟩] .null)) (by decide)
  exact hcolumns.perform (a := .call ⟨.query, 2⟩ (.union (.statement ⟨.query, 0⟩))) (by decide)

theorem stacked_sourceless : sourceless.Stacked 0 := by
  rintro i - j ⟨s, hs, q, hq, rfl⟩
  refine ⟨Nat.zero_le _, ?_⟩
  match i with
  | 0 => cases hs; cases hq
  | 1 => cases hs; cases hq
  | 2 =>
    cases hs
    revert q
    decide
  | _ + 3 => cases hs

/-- Its subselect compiles. The query cannot be written for its own source, and does not compile
for that of its branch. -/
theorem compiles_iff_written_sourceless :
    sourceless.Reachable ∧ sourceless.Acyclic ∧
      (∀ s ∈ sourceless.statements, ∀ v ∈ s.branches, ∃ r, v = .statement r) ∧
      sourceless.compile ⟨.subselect, 1⟩ = .ok ⟨"(SELECT * WHERE a = ?) as s", [.int 1]⟩ ∧
      sourceless.text ⟨.subselect, 1⟩ = .ok "(SELECT * WHERE a = ?) as s" ∧
      sourceless.text ⟨.query, 2⟩ = .error (.joinedItem 0 "int") ∧
      sourceless.compile ⟨.query, 2⟩ = .error (.joinedItem 0 "bool") ∧
      ∃ q : Ref, sourceless.Reaches 2 q.index ∧
        sourceless.text q = .error (.joinedItem 0 "bool") := by
  have hacyclic := stacked_sourceless.acyclic
  have hbranches : ∀ s ∈ sourceless.statements, ∀ v ∈ s.branches, ∃ r, v = .statement r := by
    simp [sourceless, Statement.ofSource, Statement.blank]
  have hsubselect := compiles_iff_written reachable_sourceless hacyclic hbranches ⟨.subselect, 1⟩
  have hquery := compiles_iff_written reachable_sourceless hacyclic hbranches ⟨.query, 2⟩
  have hcompile : sourceless.compile ⟨.subselect, 1⟩ =
      .ok ⟨"(SELECT * WHERE a = ?) as s", [.int 1]⟩ := by
    change sourceless.compileWithin 4 ⟨.subselect, 1⟩ = _
    simp only [compileWithin, Statement.compileFrom, Statement.boundInOrder_eq]
    rfl
  exact ⟨reachable_sourceless, hacyclic, hbranches, hcompile, (hsubselect.2.1 _ hcompile).1, rfl,
    rfl, hquery.2.2 _ rfl⟩

end Store

end BoundQuery
