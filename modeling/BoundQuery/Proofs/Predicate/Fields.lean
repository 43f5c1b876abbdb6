import BoundQuery.Predicate.Decode

/-!
# What reads as valid

A reading that is put together from parts has a result exactly when every part has one. Each lemma
here says so of one way to put readings together, from the steps of a path to the fields of a
record and the items of a list, and the last section of the readings of single fields.

## Main statements

* `Field.required_eq_valid_iff`, `Field.optional_eq_valid_iff`: a field that reads as valid.
* `Field.noneBeyond_eq_valid_iff`: no key beyond the known ones.
* `Predicate.atLeastOne_eq_valid_iff`: a list of items that read as valid, and are not none.
* `Predicate.ofFields_eq_valid_iff`: a record that reads as valid.
-/

namespace BoundQuery

namespace Decoded

variable {α β : Type} {d : Decoded α}

theorem fault_ne_valid {cause : Issue.Cause} {a : α} : (fault cause : Decoded α) ≠ valid a := by
  intro h
  cases h

@[simp] theorem under_eq_valid_iff {step : Issue.Step} {a : α} :
    d.under step = valid a ↔ d = valid a := by
  cases d <;> simp [under]

theorem andThen_eq_valid_iff {f : α → Decoded β} {b : β} :
    d.andThen f = valid b ↔ ∃ a, d = valid a ∧ f a = valid b := by
  cases d <;> simp [andThen]

theorem map_eq_valid_iff {f : α → β} {b : β} :
    f <$> d = valid b ↔ ∃ a, d = valid a ∧ f a = b := by
  simp [both_eq_valid_iff]

theorem seq_eq_valid_iff {f : Decoded (α → β)} {b : β} :
    f <*> d = valid b ↔ ∃ g a, f = valid g ∧ d = valid a ∧ g a = b := both_eq_valid_iff

theorem map_seq_eq_valid_iff {γ : Type} {f : α → β → γ} {d' : Decoded β} {c : γ} :
    f <$> d <*> d' = valid c ↔ ∃ a b, d = valid a ∧ d' = valid b ∧ f a b = c := by
  simp only [seq_eq_valid_iff, map_eq_valid_iff]
  constructor
  · rintro ⟨_, b, ⟨a, ha, rfl⟩, hb, hc⟩
    exact ⟨a, b, ha, hb, hc⟩
  · rintro ⟨a, b, ha, hb, hc⟩
    exact ⟨_, b, ⟨a, ha, rfl⟩, hb, hc⟩

theorem map_seq_seq_eq_valid_iff {γ δ : Type} {f : α → β → γ → δ} {d' : Decoded β}
    {d'' : Decoded γ} {x : δ} :
    f <$> d <*> d' <*> d'' = valid x ↔
      ∃ a b c, d = valid a ∧ d' = valid b ∧ d'' = valid c ∧ f a b c = x := by
  rw [seq_eq_valid_iff]
  constructor
  · rintro ⟨_, c, hg, hc, hx⟩
    obtain ⟨a, b, ha, hb, rfl⟩ := map_seq_eq_valid_iff.1 hg
    exact ⟨a, b, c, ha, hb, hc, hx⟩
  · rintro ⟨a, b, c, ha, hb, hc, hx⟩
    exact ⟨_, c, map_seq_eq_valid_iff.2 ⟨a, b, ha, hb, rfl⟩, hc, hx⟩

theorem toExcept_eq_ok_iff {refuse : List Issue → Failure} {a : α} :
    d.toExcept refuse = .ok a ↔ d = valid a := by
  cases d <;> simp [toExcept]

end Decoded

namespace Field

variable {α : Type} {name : String} {decode : Value → Decoded α} {entries : List (Value × Value)}
  {a : α}

theorem required_eq_valid_iff :
    required name decode entries = .valid a ↔
      ∃ v, Value.field? name entries = some v ∧ decode v = .valid a := by
  unfold required
  cases Value.field? name entries <;> simp [Decoded.fault]

theorem optional_eq_valid_iff {absent : α} :
    optional name absent decode entries = .valid a ↔
      (Value.field? name entries = none ∧ absent = a) ∨
        ∃ v, Value.field? name entries = some v ∧ decode v = .valid a := by
  unfold optional
  cases Value.field? name entries <;> simp

theorem beyond?_eq_none_iff {known : List String} {key : Value} :
    beyond? known key = none ↔ ∃ s ∈ known, key.text? = some s := by
  unfold beyond?
  cases key.text? <;> simp

/-- No key is beyond the known ones exactly when each counts as one of them. -/
theorem noneBeyond_eq_valid_iff {known : List String} {u : Unit} :
    noneBeyond known entries = .valid u ↔
      ∀ e ∈ entries, ∃ s ∈ known, e.1.text? = some s := by
  unfold noneBeyond
  have hnil : (entries.filterMap fun e => beyond? known e.1) = [] ↔
      ∀ e ∈ entries, ∃ s ∈ known, e.1.text? = some s := by
    rw [List.filterMap_eq_nil_iff]
    exact forall₂_congr fun e _ => beyond?_eq_none_iff
  rw [← hnil]
  cases entries.filterMap fun e => beyond? known e.1 <;> simp

end Field

namespace Predicate

theorem childAmong_eq (levels : Nat) (entries : List (Value × Value)) :
    childAmong levels entries = (Value.field? "child" entries).map (ofValueWithin levels) := by
  induction entries with
  | nil => rfl
  | cons e rest ih =>
    obtain ⟨key, value⟩ := e
    rw [childAmong, Value.field?_cons, ih]
    split <;> rfl

theorem childrenAmong_eq (levels : Nat) (entries : List (Value × Value)) :
    childrenAmong levels entries =
      (Value.field? "children" entries).map (childrenOf levels) := by
  induction entries with
  | nil => rfl
  | cons e rest ih =>
    obtain ⟨key, value⟩ := e
    rw [childrenAmong, Value.field?_cons, ih]
    split <;> rfl

section

variable {α : Type} {a : α}

/-- A reading one level down is valid when there is a level left. -/
theorem descend_eq_valid_iff {levels : Nat} {read : Nat → Decoded α} :
    descend levels read = .valid a ↔ ∃ inside, levels = inside + 1 ∧ read inside = .valid a := by
  cases levels <;> simp [descend, Decoded.fault]

theorem itemsFrom_eq_valid_iff (index : Nat) {items : List (Decoded α)} {as : List α} :
    itemsFrom index items = .valid as ↔ items = as.map .valid := by
  induction items generalizing index as with
  | nil => cases as <;> simp [itemsFrom]
  | cons item rest ih =>
    simp only [itemsFrom, Decoded.seq_eq_valid_iff, Decoded.map_eq_valid_iff,
      Decoded.under_eq_valid_iff, ih]
    constructor
    · rintro ⟨_, bs, ⟨b, hitem, rfl⟩, hrest, rfl⟩
      rw [hitem, hrest, List.map_cons]
    · intro h
      cases as with
      | nil => cases h
      | cons b bs =>
        obtain ⟨hitem, hrest⟩ := List.cons.inj h
        exact ⟨List.cons b, bs, ⟨b, hitem, rfl⟩, hrest, rfl⟩

/-- Items are read validly together when each is, and there is one. -/
theorem atLeastOne_eq_valid_iff {items : List (Decoded α)} {rest : List α} :
    atLeastOne items = .valid (a, rest) ↔ items = (a :: rest).map .valid := by
  rw [← itemsFrom_eq_valid_iff 0]
  unfold atLeastOne
  cases itemsFrom 0 items with
  | valid as => cases as <;> simp
  | invalid issues => dsimp only; split <;> simp
  | unhashable kind => simp

theorem requiredField_eq_valid_iff {name : String} {found : Option (Decoded α)} :
    requiredField name found = .valid a ↔ found = some (.valid a) := by
  cases found <;> simp [requiredField, Decoded.fault]

end

theorem decodeTag_eq_valid_iff {kind : Kind} {v : Value} {u : Unit} :
    decodeTag kind v = .valid u ↔ v = .text kind.tag := by
  unfold decodeTag
  cases v <;> simp [Decoded.fault]

/-- Whether a predicate has its bounds where it needs them. -/
def HasBounds : Predicate Value → Prop
  | .between _ start stop => start ≠ .null ∧ stop ≠ .null
  | _ => True

theorem withBounds_eq_valid_iff {p q : Predicate Value} :
    withBounds q = .valid p ↔ q = p ∧ q.HasBounds := by
  unfold withBounds HasBounds
  cases q with
  | between expr start stop =>
    by_cases hstart : start = .null
    · simp [hstart, Value.isNull, Decoded.fault]
    · by_cases hstop : stop = .null <;> simp [hstart, hstop, Value.isNull, Decoded.fault]
  | _ => simp

/-- A record reads as valid when its tag and its fields do, there are no others, and the bounds of
a range are there. -/
theorem ofFields_eq_valid_iff {kind : Kind} {entries : List (Value × Value)}
    {child : Option (Decoded (Predicate Value))}
    {children : Option (Decoded (Predicate Value × List (Predicate Value)))}
    {p : Predicate Value} :
    ofFields kind entries child children = .valid p ↔
      Field.optional "kind" () (decodeTag kind) entries = .valid () ∧
        readFields kind entries child children = .valid p ∧
        Field.noneBeyond ("kind" :: kind.fields) entries = .valid () ∧ p.HasBounds := by
  simp only [ofFields, Decoded.andThen_eq_valid_iff, withBounds_eq_valid_iff,
    Decoded.map_seq_seq_eq_valid_iff]
  constructor
  · rintro ⟨q, ⟨_, q', _, htag, hq, hnone, rfl⟩, rfl, hbounds⟩
    exact ⟨htag, hq, hnone, hbounds⟩
  · rintro ⟨htag, hp, hnone, hbounds⟩
    exact ⟨p, ⟨_, p, _, htag, hp, hnone, rfl⟩, rfl, hbounds⟩

end Predicate

end BoundQuery
