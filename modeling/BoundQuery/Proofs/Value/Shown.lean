import BoundQuery.Statement.Text

/-!
# The statements that a display shows

The display of a value takes in the texts of some statements: of the value itself, if it is one,
and of those inside it. No other text matters to it. The same holds of the text of a statement,
which takes in the displays of its columns, its branches and its label.

## Main definitions

* `Value.shown`, `Statement.shown`: the statements whose texts are taken in.

## Main statements

* `Value.display_congr`, `Statement.text_congr`: resolvers that agree on these give the same text.
-/

namespace BoundQuery

namespace Value

mutual

/-- The statements whose texts the display of a value takes in. -/
def shown : Value → List Ref
  | list items | tuple items | set items => shownAll items
  | mapping entries => shownEntries entries
  | fragment expression separator => shown expression ++ shown separator
  | predicate p => shownIn p
  | statement r => [r]
  | _ => []

def shownAll : List Value → List Ref
  | [] => []
  | v :: rest => shown v ++ shownAll rest

def shownEntries : List (Value × Value) → List Ref
  | [] => []
  | (key, value) :: rest => shown key ++ shown value ++ shownEntries rest

def shownIn : Predicate Value → List Ref
  | .comparison _ _ value => shown value
  | .between _ start stop => shown start ++ shown stop
  | .isIn _ values => shownAll values
  | .nullCheck _ _ => []
  | .not child => shownIn child
  | .junction _ first rest => shownIn first ++ shownInAll rest

def shownInAll : List (Predicate Value) → List Ref
  | [] => []
  | p :: rest => shownIn p ++ shownInAll rest

end

variable {f g : Resolver}

mutual

theorem literal_congr (v : Value) (h : ∀ r ∈ v.shown, f r = g r) : v.literal f = v.literal g := by
  match v with
  | null | bool _ | int _ | float _ | text _ | bytes _ | range .. | stream _ | operation _
  | connective _ => rfl
  | list items | tuple items | set items =>
    simp only [literal, literals_congr items h]
  | mapping entries => simp only [literal, entryLiterals_congr entries h]
  | fragment expression separator =>
    simp only [shown, List.mem_append] at h
    simp only [literal, literal_congr expression fun r hr => h r (.inl hr),
      literal_congr separator fun r hr => h r (.inr hr)]
  | predicate p => simp only [literal, fieldLiterals_congr p h]
  | statement r => simp only [literal, h r List.mem_cons_self]

theorem literals_congr (vs : List Value) (h : ∀ r ∈ shownAll vs, f r = g r) :
    literals f vs = literals g vs := by
  match vs with
  | [] => rfl
  | v :: rest =>
    simp only [shownAll, List.mem_append] at h
    simp only [literals, literal_congr v fun r hr => h r (.inl hr),
      literals_congr rest fun r hr => h r (.inr hr)]

theorem entryLiterals_congr (entries : List (Value × Value))
    (h : ∀ r ∈ shownEntries entries, f r = g r) :
    entryLiterals f entries = entryLiterals g entries := by
  match entries with
  | [] => rfl
  | (key, value) :: rest =>
    simp only [shownEntries, List.mem_append] at h
    simp only [entryLiterals, literal_congr key fun r hr => h r (.inl (.inl hr)),
      literal_congr value fun r hr => h r (.inl (.inr hr)),
      entryLiterals_congr rest fun r hr => h r (.inr hr)]

theorem fieldLiterals_congr (p : Predicate Value) (h : ∀ r ∈ shownIn p, f r = g r) :
    fieldLiterals f p = fieldLiterals g p := by
  match p with
  | .comparison _ _ value => simp only [fieldLiterals, literal_congr value h]
  | .between _ start stop =>
    simp only [shownIn, List.mem_append] at h
    simp only [fieldLiterals, literal_congr start fun r hr => h r (.inl hr),
      literal_congr stop fun r hr => h r (.inr hr)]
  | .isIn _ values => simp only [fieldLiterals, literals_congr values h]
  | .nullCheck _ _ => rfl
  | .not child => simp only [fieldLiterals, fieldLiterals_congr child h]
  | .junction _ first rest =>
    simp only [shownIn, List.mem_append] at h
    simp only [fieldLiterals, fieldLiterals_congr first fun r hr => h r (.inl hr),
      predicateLiterals_congr rest fun r hr => h r (.inr hr)]

theorem predicateLiterals_congr (ps : List (Predicate Value))
    (h : ∀ r ∈ shownInAll ps, f r = g r) : predicateLiterals f ps = predicateLiterals g ps := by
  match ps with
  | [] => rfl
  | p :: rest =>
    simp only [shownInAll, List.mem_append] at h
    simp only [predicateLiterals, fieldLiterals_congr p fun r hr => h r (.inl hr),
      predicateLiterals_congr rest fun r hr => h r (.inr hr)]

end

/-- What a display shows decides it. -/
theorem display_congr (v : Value) (h : ∀ r ∈ v.shown, f r = g r) : v.display f = v.display g := by
  cases v with
  | predicate p => simp only [display, fieldLiterals_congr p h]
  | statement r => exact h r List.mem_cons_self
  | text | operation | connective => rfl
  | _ => exact literal_congr _ h

theorem mapM_display_congr (vs : List Value) (h : ∀ r ∈ vs.flatMap shown, f r = g r) :
    vs.mapM (·.display f) = vs.mapM (·.display g) := by
  induction vs with
  | nil => rfl
  | cons v rest ih =>
    simp only [List.flatMap_cons, List.mem_append] at h
    rw [List.mapM_cons, List.mapM_cons, display_congr v fun r hr => h r (.inl hr),
      ih fun r hr => h r (.inr hr)]

/-- A number shows no statement. -/
theorem display_congr_of_ordered {v : Value} {symbol : String} {n : Int ⊕ Float}
    (h : v.ordered symbol = .ok n) : v.display f = v.display g := by
  cases v <;> first | rfl | cases h

end Value

theorem Clause.limit_congr {f g : Resolver} (limit offset : Value) :
    Clause.limit f limit offset = Clause.limit g limit offset := by
  unfold Clause.limit
  rcases hl : limit.ordered "<=" with failure | n
  · rfl
  · rcases ho : offset.ordered ">" with failure | m
    · rfl
    · rw [Value.display_congr_of_ordered (f := f) (g := g) hl,
        Value.display_congr_of_ordered (f := f) (g := g) ho]

namespace Statement

/-- The statements whose texts the text of a statement takes in. -/
def shown (s : Statement) : List Ref :=
  s.columns.flatMap Value.shown ++ s.branches.flatMap Value.shown ++ s.label.shown

theorem mem_shown {s : Statement} {q : Ref} :
    q ∈ s.shown ↔ (∃ v ∈ s.columns, q ∈ v.shown) ∨ (∃ v ∈ s.branches, q ∈ v.shown) ∨
      q ∈ s.label.shown := by
  simp only [shown, List.mem_append, List.mem_flatMap, or_assoc]

/-- What the text of a statement shows decides it. -/
theorem text_congr {f g : Resolver} (s : Statement) (h : ∀ r ∈ s.shown, f r = g r)
    (variant : Variant) : s.text f variant = s.text g variant := by
  simp only [shown, List.mem_append] at h
  have hcolumns := Value.mapM_display_congr s.columns fun r hr => h r (.inl (.inl hr))
  have hbranches := Value.mapM_display_congr s.branches fun r hr => h r (.inl (.inr hr))
  have hlabel := Value.display_congr s.label fun r hr => h r (.inr hr)
  have hselect : Clause.select f s.columns s.distinct = Clause.select g s.columns s.distinct := by
    unfold Clause.select
    cases hc : s.columns with
    | nil => rfl
    | cons v rest =>
      rw [hc] at hcolumns
      simp only [hcolumns]
  have hbody : s.body f = s.body g := by
    simp only [body, hselect, Clause.union, hbranches, Clause.limit_congr (f := f) (g := g)]
  cases variant with
  | query => exact hbody
  | subselect => simp only [text, hbody, hlabel]

end Statement

end BoundQuery
