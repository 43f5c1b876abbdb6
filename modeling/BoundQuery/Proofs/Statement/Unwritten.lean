import BoundQuery.Proofs.Statement.Parts

/-!
# What keeps a text from being written

A display has no failure of its own: it fails like the first of the statements that it shows and
that have no text. The text of a statement fails like one that it shows, or because a piece is no
text, or because a limit is no number.

## Main definitions

* `Result.failure?`: the failure of a computation.

## Main statements

* `Value.failure?_display`: the failure of a display.
* `Statement.text_eq_error`: the failures of a text.
-/

namespace BoundQuery

namespace Result

variable {α β : Type}

/-- The failure of a computation, where it has no result. -/
def failure? : Except Failure α → Option Failure
  | .ok _ => none
  | .error failure => some failure

@[simp] theorem failure?_eq_some {x : Except Failure α} {failure : Failure} :
    failure? x = some failure ↔ x = .error failure := by
  cases x <;> simp [failure?]

@[simp] theorem failure?_bind_pure (x : Except Failure α) (f : α → β) :
    failure? (x >>= fun a => pure (f a)) = failure? x := by
  cases x <;> rfl

@[simp] theorem failure?_map (f : α → β) (x : Except Failure α) :
    failure? (f <$> x) = failure? x := by
  cases x <;> rfl

/-- Of two computations the first one that fails is what the whole fails like. -/
theorem failure?_bind {f : α → Except Failure β} {o : Option Failure}
    (h : ∀ a, failure? (f a) = o) (x : Except Failure α) :
    failure? (x >>= f) = (failure? x).or o := by
  cases x with
  | error failure => rfl
  | ok a => exact (h a).trans (Option.none_or).symm

end Result

namespace Value

open Result

variable (f : Resolver)

mutual

theorem failure?_literal (v : Value) :
    failure? (v.literal f) = v.shown.findSome? fun r => failure? (f r) := by
  match v with
  | null | bool _ | int _ | float _ | text _ | bytes _ | range .. | stream _ | operation _
  | connective _ => rfl
  | list items | tuple items | set items =>
    simp [literal, shown, failure?_literals items]
  | mapping entries => simp [literal, shown, failure?_entryLiterals entries]
  | fragment expression separator =>
    simp only [literal, shown, List.findSome?_append]
    rw [failure?_bind fun _ => failure?_bind_pure _ _, failure?_literal expression,
      failure?_literal separator]
  | predicate p => simp [literal, shown, failure?_fieldLiterals p]
  | statement r => simp [literal, shown]

theorem failure?_literals (vs : List Value) :
    failure? (literals f vs) = (shownAll vs).findSome? fun r => failure? (f r) := by
  match vs with
  | [] => rfl
  | v :: rest =>
    simp only [literals, shownAll, List.findSome?_append]
    rw [failure?_bind fun _ => failure?_bind_pure _ _, failure?_literal v, failure?_literals rest]

theorem failure?_entryLiterals (entries : List (Value × Value)) :
    failure? (entryLiterals f entries) =
      (shownEntries entries).findSome? fun r => failure? (f r) := by
  match entries with
  | [] => rfl
  | (key, value) :: rest =>
    simp only [entryLiterals, shownEntries, List.findSome?_append, Option.or_assoc]
    rw [failure?_bind fun _ => failure?_bind (fun _ => failure?_bind_pure _ _) _,
      failure?_literal key, failure?_literal value, failure?_entryLiterals rest]

theorem failure?_fieldLiterals (p : Predicate Value) :
    failure? (fieldLiterals f p) = (shownIn p).findSome? fun r => failure? (f r) := by
  match p with
  | .comparison _ _ value => simp [fieldLiterals, shownIn, failure?_literal value]
  | .between _ start stop =>
    simp only [fieldLiterals, shownIn, List.findSome?_append]
    rw [failure?_bind fun _ => failure?_bind_pure _ _, failure?_literal start,
      failure?_literal stop]
  | .isIn _ values => simp [fieldLiterals, shownIn, failure?_literals values]
  | .nullCheck _ _ => rfl
  | .not child => simp [fieldLiterals, shownIn, failure?_fieldLiterals child]
  | .junction _ first rest =>
    simp only [fieldLiterals, shownIn, List.findSome?_append]
    rw [failure?_bind fun _ => failure?_bind_pure _ _, failure?_fieldLiterals first,
      failure?_predicateLiterals rest]

theorem failure?_predicateLiterals (ps : List (Predicate Value)) :
    failure? (predicateLiterals f ps) = (shownInAll ps).findSome? fun r => failure? (f r) := by
  match ps with
  | [] => rfl
  | p :: rest =>
    simp only [predicateLiterals, shownInAll, List.findSome?_append]
    rw [failure?_bind fun _ => failure?_bind_pure _ _, failure?_fieldLiterals p,
      failure?_predicateLiterals rest]

end

/-- A display fails like the first of the statements that it shows and that have no text. -/
theorem failure?_display (v : Value) :
    failure? (v.display f) = v.shown.findSome? fun r => failure? (f r) := by
  cases v with
  | text | operation | connective => rfl
  | predicate p => simp [display, shown, failure?_fieldLiterals f p]
  | statement r => simp [display, shown]
  | _ => exact failure?_literal f _

variable {f}

theorem exists_of_display_eq_error {v : Value} {failure : Failure}
    (h : v.display f = .error failure) : ∃ r ∈ v.shown, f r = .error failure := by
  rw [← failure?_eq_some, failure?_display] at h
  obtain ⟨r, hr, h⟩ := List.exists_of_findSome?_eq_some h
  exact ⟨r, hr, failure?_eq_some.1 h⟩

theorem exists_of_mapM_display_eq_error {vs : List Value} {failure : Failure}
    (h : vs.mapM (·.display f) = .error failure) :
    ∃ v ∈ vs, ∃ r ∈ v.shown, f r = .error failure := by
  obtain ⟨v, hv, h⟩ := mapM_eq_error h
  exact ⟨v, hv, exists_of_display_eq_error h⟩

theorem shown_of_ordered {v : Value} {symbol : String} {n : Int ⊕ Float}
    (h : v.ordered symbol = .ok n) : v.shown = [] := by
  cases v <;> first | rfl | cases h

/-- A number can be shown. -/
theorem display_ne_error_of_ordered {v : Value} {symbol : String} {n : Int ⊕ Float}
    (h : v.ordered symbol = .ok n) (failure : Failure) : v.display f ≠ .error failure := by
  intro herror
  obtain ⟨r, hr, -⟩ := exists_of_display_eq_error herror
  rw [shown_of_ordered h] at hr
  cases hr

end Value

/-- A piece that is no text, or a limit that is no number. -/
def Failure.OfPiece (failure : Failure) : Prop :=
  (∃ index kind, failure = .joinedItem index kind) ∨
    ∃ symbol kind, failure = .unordered symbol kind

theorem Failure.OfPiece.ne_cyclic {failure : Failure} (h : failure.OfPiece) :
    failure ≠ .cyclic := by
  rcases h with ⟨index, kind, rfl⟩ | ⟨symbol, kind, rfl⟩
  · simp
  · simp

namespace Clause

variable {f : Resolver} {failure : Failure}

theorem ofPiece_of_textsFrom {items : List Value} {index : Nat}
    (h : textsFrom index items = .error failure) : failure.OfPiece := by
  induction items generalizing index with
  | nil => cases h
  | cons item rest ih =>
    unfold textsFrom at h
    split at h
    · rcases Result.bind_eq_error.1 h with h | ⟨texts, -, h⟩
      · exact ih h
      · cases h
    · cases h
      exact .inl ⟨_, _, rfl⟩

theorem ofPiece_of_joinTexts {separator : String} {items : List Value}
    (h : joinTexts separator items = .error failure) : failure.OfPiece := by
  rcases Result.bind_eq_error.1 h with h | ⟨texts, -, h⟩
  · exact ofPiece_of_textsFrom h
  · cases h

theorem ofPiece_of_list {lead : String} {items : List Value}
    (h : list lead items = .error failure) : failure.OfPiece := by
  cases items with
  | nil => cases h
  | cons item rest =>
    rcases Result.bind_eq_error.1 h with h | ⟨joined, -, h⟩
    · exact ofPiece_of_joinTexts h
    · cases h

theorem ofPiece_of_fragments {lead : Value} {pieces : List Fragment}
    (h : fragments lead pieces = .error failure) : failure.OfPiece := by
  cases pieces with
  | nil => cases h
  | cons first rest => exact ofPiece_of_joinTexts h

theorem ofPiece_of_ordered {v : Value} {symbol : String}
    (h : v.ordered symbol = .error failure) : failure.OfPiece := by
  unfold Value.ordered at h
  split at h
  · cases h
  · cases h
    exact .inr ⟨_, _, rfl⟩

theorem ofPiece_of_limit {count passed : Value} (h : limit f count passed = .error failure) :
    failure.OfPiece := by
  rcases Result.bind_eq_error.1 h with h | ⟨n, hn, h⟩
  · exact ofPiece_of_ordered h
  · split at h
    · cases h
    · rcases Result.bind_eq_error.1 h with h | ⟨m, hm, h⟩
      · exact ofPiece_of_ordered h
      · split at h
        · rcases Result.bind_eq_error.1 h with h | ⟨shown, -, h⟩
          · exact absurd h (Value.display_ne_error_of_ordered hn failure)
          · rcases Result.bind_eq_error.1 h with h | ⟨more, -, h⟩
            · exact absurd h (Value.display_ne_error_of_ordered hm failure)
            · cases h
        · rcases Result.bind_eq_error.1 h with h | ⟨shown, -, h⟩
          · exact absurd h (Value.display_ne_error_of_ordered hn failure)
          · cases h

theorem exists_of_select_eq_error {columns : List Value} {distinct : Bool}
    (h : select f columns distinct = .error failure) :
    ∃ v ∈ columns, ∃ r ∈ v.shown, f r = .error failure := by
  cases columns with
  | nil =>
    rw [select_nil] at h
    cases h
  | cons v rest =>
    rcases Result.bind_eq_error.1 h with h | ⟨shown, -, h⟩
    · exact Value.exists_of_mapM_display_eq_error h
    · cases h

theorem exists_of_union_eq_error {branches : List Value} (h : union f branches = .error failure) :
    ∃ v ∈ branches, ∃ r ∈ v.shown, f r = .error failure := by
  rcases Result.bind_eq_error.1 h with h | ⟨shown, -, h⟩
  · exact Value.exists_of_mapM_display_eq_error h
  · cases h

end Clause

namespace Statement

variable {s : Statement} {f : Resolver} {failure : Failure}

theorem body_eq_error (h : s.body f = .error failure) :
    failure.OfPiece ∨ ∃ q ∈ s.shown, f q = .error failure := by
  -- The clauses in their order; columns and branches are the ones that show statements.
  rcases Result.bind_eq_error.1 h with h | ⟨columns, -, h⟩
  · obtain ⟨v, hv, q, hq, h⟩ := Clause.exists_of_select_eq_error h
    exact .inr ⟨q, mem_shown.2 (.inl ⟨v, hv, hq⟩), h⟩
  rcases Result.bind_eq_error.1 h with h | ⟨sources, -, h⟩
  · exact .inl (Clause.ofPiece_of_list h)
  rcases Result.bind_eq_error.1 h with h | ⟨joins, -, h⟩
  · exact .inl (Clause.ofPiece_of_fragments h)
  rcases Result.bind_eq_error.1 h with h | ⟨rows, -, h⟩
  · exact .inl (Clause.ofPiece_of_fragments h)
  rcases Result.bind_eq_error.1 h with h | ⟨groupings, -, h⟩
  · exact .inl (Clause.ofPiece_of_list h)
  rcases Result.bind_eq_error.1 h with h | ⟨groups, -, h⟩
  · exact .inl (Clause.ofPiece_of_fragments h)
  rcases Result.bind_eq_error.1 h with h | ⟨orderings, -, h⟩
  · exact .inl (Clause.ofPiece_of_list h)
  rcases Result.bind_eq_error.1 h with h | ⟨limit, -, h⟩
  · exact .inl (Clause.ofPiece_of_limit h)
  rcases Result.bind_eq_error.1 h with h | ⟨branches, -, h⟩
  · obtain ⟨v, hv, q, hq, h⟩ := Clause.exists_of_union_eq_error h
    exact .inr ⟨q, mem_shown.2 (.inr (.inl ⟨v, hv, hq⟩)), h⟩
  · cases h

/-- The text of a statement fails like that of a statement that it shows, or because of a piece of
its own. -/
theorem text_eq_error {variant : Variant} (h : s.text f variant = .error failure) :
    failure.OfPiece ∨ ∃ q ∈ s.shown, f q = .error failure := by
  cases variant with
  | query => exact body_eq_error h
  | subselect =>
    rcases Result.bind_eq_error.1 h with h | ⟨body, -, h⟩
    · exact body_eq_error h
    · rcases Result.bind_eq_error.1 h with h | ⟨label, -, h⟩
      · obtain ⟨q, hq, h⟩ := Value.exists_of_display_eq_error h
        exact .inr ⟨q, mem_shown.2 (.inr (.inr hq)), h⟩
      · cases h

end Statement

end BoundQuery
