import BoundQuery.Predicate.Compose
import BoundQuery.Proofs.Predicate.Fields
import BoundQuery.Proofs.Predicate.Shape
import BoundQuery.Proofs.Value.Json

/-!
# The language of predicates as data

Which decoded documents describe a predicate, and which predicate, is said here without reading:
by one rule for each shape. A document of a shape is a record with the tag of the shape, with
fields of the shape only, and with the right kind of value in each; conditions are described in
turn. What it describes is what the composition of that shape makes of the parts.

Reading accepts exactly the documents that the rules describe, down to a fixed depth, and gives what
they say.

## Main definitions

* `Predicate.Record`: the entries of a record of a shape.
* `Predicate.Truth`: the values that stand for a truth value.
* `Predicate.Describes`: what a value describes.

## Main statements

* `Predicate.ofValueWithin_of_describes`: reading gives what is described.
* `Predicate.describes_of_ofValueWithin`: what is read from a document is described by it.
* `Predicate.read_iff_described`: both, for any document.
* `Predicate.negations_not_read`: a document that is described and too deep.
-/

namespace BoundQuery

namespace Compose

theorem between_text {expr : String} {start stop : Value} (hstart : start ≠ .null)
    (hstop : stop ≠ .null) :
    between (.text expr) start stop = .ok (.between expr start stop) := by
  simp only [between, Value.isNull_iff, hstart, hstop, if_false]
  rfl

theorem conditions_predicates (qs : List (Predicate Value)) :
    conditions (qs.map .predicate) = .ok qs := by
  induction qs with
  | nil => rfl
  | cons q rest ih =>
    rw [List.map_cons, conditions, Predicate.ofValue?_predicate, ih]
    rfl

theorem join_predicates (joiner : Connective) (q : Predicate Value)
    (qs : List (Predicate Value)) :
    join joiner ((q :: qs).map .predicate) = .ok (.junction joiner q qs) := by
  have hspread : spread ((q :: qs).map .predicate) = (q :: qs).map .predicate := by
    cases qs <;> rfl
  rw [join, hspread, List.map_cons]
  simp only [Predicate.ofValue?_predicate, conditions_predicates]
  rfl

end Compose

namespace Predicate

/-- The entries of a record: the tag of its shape, and no key but those of its fields. -/
structure Record (kind : Kind) (entries : List (Value × Value)) : Prop where
  tag : Value.field? "kind" entries = some (.text kind.tag)
  known : ∀ e ∈ entries, ∃ name ∈ "kind" :: kind.fields, e.1 = .text name

/-- The words for a truth value. -/
def truthWords : Bool → List String
  | false => ["0", "off", "f", "false", "n", "no"]
  | true => ["1", "on", "t", "true", "y", "yes"]

/-- The values that stand for a truth value: itself, an equal number, and its words in any case. -/
inductive Truth : Value → Bool → Prop where
  | bool (b : Bool) : Truth (.bool b) b
  | number (v : Value) (b : Bool) (h : v.same (.int (if b then 1 else 0)) = true) : Truth v b
  | word (s : String) (b : Bool) (h : s.map Char.toLower ∈ truthWords b) : Truth (.text s) b

/-- A field that may be left out and has the given value then. -/
def Given {α : Type} (name : String) (absent : α) (reads : Value → α → Prop)
    (entries : List (Value × Value)) (a : α) : Prop :=
  (Value.field? name entries = none ∧ absent = a) ∨
    ∃ v, Value.field? name entries = some v ∧ reads v a

mutual

/-- What a value describes: the outcome of the composition that its shape names, for its parts. -/
inductive Describes : Value → Except Failure (Predicate Value) → Prop where
  | comparison {entries : List (Value × Value)} {op : Comparison} {expr : String} {value : Value}
      (record : Record .comparison entries)
      (hop : Value.field? "op" entries = some (.text op.symbol))
      (hexpr : Value.field? "expr" entries = some (.text expr))
      (hvalue : Value.field? "value" entries = some value) :
      Describes (.mapping entries) (Compose.compare op (.text expr) value)
  | between {entries : List (Value × Value)} {expr : String} {start stop : Value}
      (record : Record .between entries)
      (hexpr : Value.field? "expr" entries = some (.text expr))
      (hstart : Value.field? "start" entries = some start) (start_ne : start ≠ .null)
      (hstop : Value.field? "end" entries = some stop) (stop_ne : stop ≠ .null) :
      Describes (.mapping entries) (Compose.between (.text expr) start stop)
  | isIn {entries : List (Value × Value)} {expr : String} {items : List Value}
      (record : Record .isIn entries)
      (hexpr : Value.field? "expr" entries = some (.text expr))
      (hvalues : Given "values" [] (fun v items => v = .list items) entries items) :
      Describes (.mapping entries) (Compose.isIn (.text expr) (.list items))
  | nullCheck {entries : List (Value × Value)} {expr : String} {negated : Bool}
      (record : Record .nullCheck entries)
      (hexpr : Value.field? "expr" entries = some (.text expr))
      (hnegated : Given "negated" false Truth entries negated) :
      Describes (.mapping entries) (Compose.isNull negated (.text expr))
  | not {entries : List (Value × Value)} {v : Value} {q : Predicate Value}
      (record : Record .not entries)
      (hchild : Value.field? "child" entries = some v) (child : Describes v (.ok q)) :
      Describes (.mapping entries) (Compose.negate (.predicate q))
  | junction {entries : List (Value × Value)} {joiner : Connective} {items : List Value}
      (qs : List (Predicate Value)) (record : Record .junction entries)
      (hjoiner : Value.field? "joiner" entries = some (.text joiner.name))
      (hchildren : Value.field? "children" entries = some (.list items)) (items_ne : items ≠ [])
      (children : DescribesAll items qs) :
      Describes (.mapping entries) (Compose.join joiner (qs.map .predicate))

/-- What the values of a list describe, item by item. -/
inductive DescribesAll : List Value → List (Predicate Value) → Prop where
  | nil : DescribesAll [] []
  | cons {v : Value} {q : Predicate Value} {rest : List Value} {qs : List (Predicate Value)}
      (first : Describes v (.ok q)) (others : DescribesAll rest qs) :
      DescribesAll (v :: rest) (q :: qs)

end

/-! ## Single values -/

section

variable {floats : Float → Prop} {v : Value} {b : Bool}

theorem truthWords_disjoint {w : String} (h : w ∈ truthWords true) : w ∉ truthWords false := by
  have hall : ∀ w ∈ truthWords true, w ∉ truthWords false := by decide
  exact hall w h

theorem truthOfText_eq_valid_iff {s : String} :
    Value.truthOfText s = .valid b ↔ s.map Char.toLower ∈ truthWords b := by
  have hfalse : Value.falseWords = truthWords false := rfl
  have htrue : Value.trueWords = truthWords true := rfl
  simp only [Value.truthOfText, hfalse, htrue, List.contains_iff_mem]
  by_cases hf : s.map Char.toLower ∈ truthWords false
  · have ht : s.map Char.toLower ∉ truthWords true := fun ht => truthWords_disjoint ht hf
    cases b <;> simp [hf, ht]
  · by_cases ht : s.map Char.toLower ∈ truthWords true <;>
      cases b <;> simp [hf, ht, Decoded.fault]

theorem truthOfInt_eq_valid_iff {i : Int} :
    Value.truthOfInt i = .valid b ↔ i = if b then 1 else 0 := by
  unfold Value.truthOfInt
  by_cases h0 : i = 0
  · subst h0
    cases b <;> simp
  · by_cases h1 : i = 1
    · subst h1
      cases b <;> simp
    · have hi : i ≠ if b then 1 else 0 := by cases b <;> assumption
      simp only [beq_iff_eq, h0, h1, hi, if_false, iff_false]
      split <;> exact Decoded.fault_ne_valid

theorem truthOfFloat_eq_valid_iff {x : Float} :
    Value.truthOfFloat x = .valid b ↔ Value.sameIntFloat (if b then 1 else 0) x = true := by
  unfold Value.truthOfFloat Value.sameIntFloat
  cases (FloatParts.ofFloat? x).bind FloatParts.toInt? with
  | none => simp [Decoded.fault]
  | some i =>
    simp only [beq_iff_eq, Option.some.injEq]
    split
    · exact truthOfInt_eq_valid_iff
    · rename_i hrange
      simp only [Decoded.fault_ne_valid, false_iff]
      rintro rfl
      cases b <;> simp [Value.wordEnd] at hrange

/-- The values that are equal to a whole number. -/
theorem same_int_iff {i : Int} :
    v.same (.int i) = true ↔ v.number? = some (.inl i) ∨
      ∃ x, v = .float x ∧ Value.sameIntFloat i x = true := by
  cases v <;> simp [Value.same, Value.text?, Value.number?, Value.sameNumber]

theorem decodeTruth_of_truth (h : Truth v b) : v.decodeTruth = .valid b := by
  cases h with
  | bool => rfl
  | number _ _ h =>
    rcases same_int_iff.1 h with hnumber | ⟨x, rfl, hx⟩
    · cases v with
      | bool c => cases b <;> cases c <;> simp_all [Value.number?]
      | int i => exact truthOfInt_eq_valid_iff.2 (by simpa [Value.number?] using hnumber)
      | _ => cases hnumber
    · exact truthOfFloat_eq_valid_iff.2 hx
  | word s _ h => exact truthOfText_eq_valid_iff.2 h

theorem truth_of_decodeTruth (hv : v.IsJson floats) (h : v.decodeTruth = .valid b) :
    Truth v b := by
  cases v with
  | bool c =>
    cases h
    exact .bool b
  | int i =>
    obtain rfl := truthOfInt_eq_valid_iff.1 h
    exact .number _ _ (same_int_iff.2 (.inl rfl))
  | float x => exact .number _ _ (same_int_iff.2 (.inr ⟨x, rfl, truthOfFloat_eq_valid_iff.1 h⟩))
  | text s => exact .word s b (truthOfText_eq_valid_iff.1 h)
  | null | list _ | mapping _ => cases h
  | _ => cases hv

theorem decodeComparison_text {s : String} {op : Comparison} :
    decodeComparison (.text s) = .valid op ↔ s = op.symbol := by
  rw [← Comparison.ofSymbol?_eq_some]
  simp only [decodeComparison, Value.decodeText_text, Decoded.andThen]
  cases Comparison.ofSymbol? s <;> simp [Decoded.fault]

theorem decodeComparison_eq_valid_iff (hv : v.IsJson floats) {op : Comparison} :
    decodeComparison v = .valid op ↔ v = .text op.symbol := by
  constructor
  · intro h
    obtain ⟨s, hs, -⟩ := Decoded.andThen_eq_valid_iff.1 h
    obtain rfl := hv.decodeText_eq_valid.1 hs
    rw [decodeComparison_text.1 h]
  · rintro rfl
    exact decodeComparison_text.2 rfl

theorem decodeConnective_text {s : String} {c : Connective} :
    decodeConnective (.text s) = .valid c ↔ s = c.name := by
  rw [← Connective.ofName?_eq_some]
  simp only [decodeConnective, Value.decodeText_text, connectiveOfText]
  cases Connective.ofName? s <;> simp [Decoded.fault]

theorem decodeConnective_eq_valid_iff (hv : v.IsJson floats) {c : Connective} :
    decodeConnective v = .valid c ↔ v = .text c.name := by
  constructor
  · intro h
    have hread : ∃ s, v.decodeText = .valid s := by
      unfold decodeConnective at h
      split at h
      · exact ⟨_, by assumption⟩
      · cases h
    obtain ⟨s, hs⟩ := hread
    obtain rfl := hv.decodeText_eq_valid.1 hs
    rw [decodeConnective_text.1 h]
  · rintro rfl
    exact decodeConnective_text.2 rfl

theorem decodeOperands_eq_valid_iff (hv : v.IsJson floats) {items : List Value} :
    decodeOperands v = .valid items ↔ v = .list items := by
  rw [← hv.operandList?_eq_some, decodeOperands]
  cases v.operandList? <;> simp [Decoded.fault]

end

/-! ## Records -/

section

variable {floats : Float → Prop} {kind : Kind} {entries : List (Value × Value)}

theorem tagOf_of_field? (h : Value.field? "kind" entries = some (.text kind.tag)) :
    tagOf entries = .valid kind := by
  simp [tagOf, h, Value.unhashable?, Value.text?]

theorem field?_of_tagOf (hentries : Value.EntriesJson floats entries)
    (h : tagOf entries = .valid kind) :
    Value.field? "kind" entries = some (.text kind.tag) := by
  unfold tagOf at h
  cases hfield : Value.field? "kind" entries with
  | none =>
    rw [hfield] at h
    cases h
  | some v =>
    have hv := hentries.of_field? hfield
    rw [hfield] at h
    cases v with
    | text s =>
      simp only [Value.unhashable?, Value.text?, Option.bind_some] at h
      cases hs : Kind.ofTag? s with
      | none => simp [hs, Decoded.fault] at h
      | some k =>
        simp only [hs, Decoded.valid.injEq] at h
        rw [Kind.ofTag?_eq_some.1 hs, h]
    | null | bool _ | int _ | float _ | list _ | mapping _ => cases h
    | _ => cases hv

/-- Fields of a record and bounds that are there are all that it needs, beside the levels for it.
Of these one is used up, and the rest is left for what is inside. -/
theorem ofValueWithin_eq_of_record (record : Record kind entries) {levels : Nat}
    {p : Predicate Value} (hdepth : p.depth ≤ levels)
    (hfields : ∀ inside, p.depth ≤ inside + 1 →
      readFields kind entries (childAmong inside entries) (childrenAmong inside entries) =
        .valid p)
    (hbounds : p.HasBounds) : ofValueWithin levels (.mapping entries) = .valid p := by
  obtain ⟨inside, rfl⟩ : ∃ inside, levels = inside + 1 :=
    Nat.exists_eq_add_of_le' (Nat.le_trans p.one_le_depth hdepth)
  have htag : Field.optional "kind" () (decodeTag kind) entries = .valid () :=
    Field.optional_eq_valid_iff.2 (.inr ⟨_, record.tag, decodeTag_eq_valid_iff.2 rfl⟩)
  have hnone : Field.noneBeyond ("kind" :: kind.fields) entries = .valid () := by
    refine Field.noneBeyond_eq_valid_iff.2 fun e he => ?_
    obtain ⟨name, hname, hkey⟩ := record.known e he
    exact ⟨name, hname, by rw [hkey]; rfl⟩
  rw [ofValueWithin, tagOf_of_field? record.tag, Decoded.andThen, Decoded.under_eq_valid_iff,
    descend_eq_valid_iff]
  exact ⟨inside, rfl, ofFields_eq_valid_iff.2 ⟨htag, hfields inside hdepth, hnone, hbounds⟩⟩

/-- What a mapping reads as comes from the fields of a record, one level down. -/
theorem record_of_ofValueWithin (hentries : Value.EntriesJson floats entries) {levels : Nat}
    {p : Predicate Value} (h : ofValueWithin levels (.mapping entries) = .valid p) :
    ∃ inside kind, levels = inside + 1 ∧ Record kind entries ∧
      readFields kind entries (childAmong inside entries) (childrenAmong inside entries) =
        .valid p ∧
      p.HasBounds := by
  rw [ofValueWithin, Decoded.andThen_eq_valid_iff] at h
  obtain ⟨kind, htag, hread⟩ := h
  rw [Decoded.under_eq_valid_iff, descend_eq_valid_iff] at hread
  obtain ⟨inside, hlevels, hfields⟩ := hread
  obtain ⟨-, hfields, hnone, hbounds⟩ := ofFields_eq_valid_iff.1 hfields
  refine ⟨inside, kind, hlevels, ⟨field?_of_tagOf hentries htag, fun e he => ?_⟩, hfields,
    hbounds⟩
  obtain ⟨name, hname, hkey⟩ := Field.noneBeyond_eq_valid_iff.1 hnone e he
  obtain ⟨key, he'⟩ := hentries.key he
  rw [he'] at hkey
  cases hkey
  exact ⟨name, hname, he'⟩

/-- A field that may be left out reads as it should when its value does. -/
theorem optional_of_given {α : Type} {name : String} {absent a : α} {reads : Value → α → Prop}
    {decode : Value → Decoded α} (hreads : ∀ v, reads v a → decode v = .valid a)
    (h : Given name absent reads entries a) :
    Field.optional name absent decode entries = .valid a := by
  refine Field.optional_eq_valid_iff.2 (h.imp_right ?_)
  rintro ⟨v, hv, hread⟩
  exact ⟨v, hv, hreads v hread⟩

theorem given_of_optional {α : Type} {name : String} {absent a : α} {reads : Value → α → Prop}
    {decode : Value → Decoded α} (hentries : Value.EntriesJson floats entries)
    (hreads : ∀ v, v.IsJson floats → decode v = .valid a → reads v a)
    (h : Field.optional name absent decode entries = .valid a) :
    Given name absent reads entries a := by
  refine (Field.optional_eq_valid_iff.1 h).imp_right ?_
  rintro ⟨v, hv, hread⟩
  exact ⟨v, hv, hreads v (hentries.of_field? hv) hread⟩

/-- A required field has the value that it reads as. -/
theorem field?_of_required {α : Type} {name : String} {a : α} {w : Value}
    {decode : Value → Decoded α} (hentries : Value.EntriesJson floats entries)
    (hreads : ∀ v, v.IsJson floats → decode v = .valid a → v = w)
    (h : Field.required name decode entries = .valid a) :
    Value.field? name entries = some w := by
  obtain ⟨v, hv, hread⟩ := Field.required_eq_valid_iff.1 h
  rw [hv, hreads v (hentries.of_field? hv) hread]

theorem required_of_field? {α : Type} {name : String} {a : α} {w : Value}
    {decode : Value → Decoded α} (hread : decode w = .valid a)
    (h : Value.field? name entries = some w) : Field.required name decode entries = .valid a :=
  Field.required_eq_valid_iff.2 ⟨w, h, hread⟩

end

/-! ## Reading what is described -/

mutual

/-- What is described can be put together, and is what is read within its depth. -/
theorem ofValueWithin_of_describes {v : Value} {outcome : Except Failure (Predicate Value)}
    (h : Describes v outcome) :
    ∃ p, outcome = .ok p ∧ ∀ levels, p.depth ≤ levels → ofValueWithin levels v = .valid p := by
  match h with
  | .comparison record hop hexpr hvalue =>
    refine ⟨_, rfl, fun levels hdepth => ?_⟩
    refine ofValueWithin_eq_of_record record hdepth (fun _ _ => ?_) trivial
    refine Decoded.map_seq_seq_eq_valid_iff.2 ⟨_, _, _, ?_, ?_, ?_, rfl⟩
    · exact required_of_field? (decodeComparison_text.2 rfl) hop
    · exact required_of_field? (Value.decodeText_text _) hexpr
    · exact required_of_field? rfl hvalue
  | .between record hexpr hstart start_ne hstop stop_ne =>
    refine ⟨_, Compose.between_text start_ne stop_ne, fun levels hdepth => ?_⟩
    refine ofValueWithin_eq_of_record record hdepth (fun _ _ => ?_) ⟨start_ne, stop_ne⟩
    refine Decoded.map_seq_seq_eq_valid_iff.2 ⟨_, _, _, ?_, ?_, ?_, rfl⟩
    · exact required_of_field? (Value.decodeText_text _) hexpr
    · exact required_of_field? rfl hstart
    · exact required_of_field? rfl hstop
  | .isIn record hexpr hvalues =>
    refine ⟨_, rfl, fun levels hdepth => ?_⟩
    refine ofValueWithin_eq_of_record record hdepth (fun _ _ => ?_) trivial
    refine Decoded.map_seq_eq_valid_iff.2 ⟨_, _, ?_, ?_, rfl⟩
    · exact required_of_field? (Value.decodeText_text _) hexpr
    · exact optional_of_given (fun _ hlist => by rw [hlist]; rfl) hvalues
  | .nullCheck record hexpr hnegated =>
    refine ⟨_, rfl, fun levels hdepth => ?_⟩
    refine ofValueWithin_eq_of_record record hdepth (fun _ _ => ?_) trivial
    refine Decoded.map_seq_eq_valid_iff.2 ⟨_, _, ?_, ?_, rfl⟩
    · exact required_of_field? (Value.decodeText_text _) hexpr
    · exact optional_of_given (fun _ => decodeTruth_of_truth) hnegated
  | .not record hchild child =>
    obtain ⟨q, hok, hq⟩ := ofValueWithin_of_describes child
    cases hok
    refine ⟨_, Compose.negate_predicate _, fun levels hdepth => ?_⟩
    refine ofValueWithin_eq_of_record record hdepth (fun inside hinside => ?_) trivial
    refine Decoded.map_eq_valid_iff.2 ⟨_, requiredField_eq_valid_iff.2 ?_, rfl⟩
    rw [childAmong_eq, hchild, Option.map, hq inside (Nat.le_of_succ_le_succ hinside)]
  | .junction qs record hjoiner hchildren items_ne children =>
    have hqs := ofValues_of_describesAll children
    cases qs with
    | nil =>
      cases children
      exact absurd rfl items_ne
    | cons q qs =>
      refine ⟨_, Compose.join_predicates _ q qs, fun levels hdepth => ?_⟩
      refine ofValueWithin_eq_of_record record hdepth (fun inside hinside => ?_) trivial
      refine Decoded.map_seq_eq_valid_iff.2 ⟨_, (q, qs), ?_, requiredField_eq_valid_iff.2 ?_, rfl⟩
      · exact required_of_field? (decodeConnective_text.2 rfl) hjoiner
      · rw [childrenAmong_eq, hchildren, Option.map, childrenOf,
          atLeastOne_eq_valid_iff.2 (hqs inside (Nat.le_of_succ_le_succ hinside))]

theorem ofValues_of_describesAll {items : List Value} {qs : List (Predicate Value)}
    (h : DescribesAll items qs) :
    ∀ levels, depthOfAll qs ≤ levels → ofValues levels items = qs.map .valid := by
  match h with
  | .nil => exact fun _ _ => rfl
  | .cons first others =>
    obtain ⟨_, hok, hfirst⟩ := ofValueWithin_of_describes first
    cases hok
    intro levels hdepth
    obtain ⟨hhead, htail⟩ := Nat.max_le.1 hdepth
    rw [ofValues, List.map_cons, hfirst levels hhead,
      ofValues_of_describesAll others levels htail]

end

/-! ## What is read is described -/

section

variable {floats : Float → Prop}

/-- What a record reads as is described by it and one deeper than its conditions at most, when
these are described. -/
theorem describes_of_readFields {kind : Kind} {entries : List (Value × Value)} {inside : Nat}
    {p : Predicate Value} (hentries : Value.EntriesJson floats entries)
    (record : Record kind entries)
    (hfields : readFields kind entries (childAmong inside entries)
      (childrenAmong inside entries) = .valid p)
    (hbounds : p.HasBounds)
    (hchild : ∀ q, childAmong inside entries = some (.valid q) →
      ∃ v, Value.field? "child" entries = some v ∧ Describes v (.ok q) ∧ q.depth ≤ inside)
    (hchildren : ∀ q qs, childrenAmong inside entries = some (.valid (q, qs)) →
      ∃ items, Value.field? "children" entries = some (.list items) ∧
        DescribesAll items (q :: qs) ∧ depthOfAll (q :: qs) ≤ inside) :
    Describes (.mapping entries) (.ok p) ∧ p.depth ≤ inside + 1 := by
  cases kind with
  | comparison =>
    obtain ⟨op, expr, value, hop, hexpr, hvalue, rfl⟩ :=
      Decoded.map_seq_seq_eq_valid_iff.1 hfields
    refine ⟨.comparison record ?_ ?_ ?_, Nat.le_add_left 1 inside⟩
    · exact field?_of_required hentries (fun _ hv => (decodeComparison_eq_valid_iff hv).1) hop
    · exact field?_of_required hentries (fun _ hv => hv.decodeText_eq_valid.1) hexpr
    · exact field?_of_required hentries (fun _ _ => Decoded.valid.inj) hvalue
  | between =>
    obtain ⟨expr, start, stop, hexpr, hstart, hstop, rfl⟩ :=
      Decoded.map_seq_seq_eq_valid_iff.1 hfields
    obtain ⟨start_ne, stop_ne⟩ := hbounds
    rw [← Compose.between_text start_ne stop_ne]
    refine ⟨.between record ?_ ?_ start_ne ?_ stop_ne, Nat.le_add_left 1 inside⟩
    · exact field?_of_required hentries (fun _ hv => hv.decodeText_eq_valid.1) hexpr
    · exact field?_of_required hentries (fun _ _ => Decoded.valid.inj) hstart
    · exact field?_of_required hentries (fun _ _ => Decoded.valid.inj) hstop
  | isIn =>
    obtain ⟨expr, items, hexpr, hitems, rfl⟩ := Decoded.map_seq_eq_valid_iff.1 hfields
    refine ⟨.isIn record ?_ ?_, Nat.le_add_left 1 inside⟩
    · exact field?_of_required hentries (fun _ hv => hv.decodeText_eq_valid.1) hexpr
    · exact given_of_optional hentries (fun _ hv => (decodeOperands_eq_valid_iff hv).1) hitems
  | nullCheck =>
    obtain ⟨expr, negated, hexpr, hnegated, rfl⟩ := Decoded.map_seq_eq_valid_iff.1 hfields
    refine ⟨.nullCheck record ?_ ?_, Nat.le_add_left 1 inside⟩
    · exact field?_of_required hentries (fun _ hv => hv.decodeText_eq_valid.1) hexpr
    · exact given_of_optional hentries (fun _ hv => truth_of_decodeTruth hv) hnegated
  | not =>
    obtain ⟨q, hq, rfl⟩ := Decoded.map_eq_valid_iff.1 hfields
    obtain ⟨v, hv, child, hdepth⟩ := hchild q (requiredField_eq_valid_iff.1 hq)
    rw [← Compose.negate_predicate]
    exact ⟨.not record hv child, Nat.succ_le_succ hdepth⟩
  | junction =>
    obtain ⟨joiner, ⟨q, qs⟩, hjoiner, hqs, rfl⟩ := Decoded.map_seq_eq_valid_iff.1 hfields
    obtain ⟨items, hitems, children, hdepth⟩ :=
      hchildren q qs (requiredField_eq_valid_iff.1 hqs)
    have items_ne : items ≠ [] := by
      rintro rfl
      cases children
    rw [← Compose.join_predicates]
    refine ⟨.junction _ record ?_ hitems items_ne children, Nat.succ_le_succ hdepth⟩
    exact field?_of_required hentries (fun _ hv => (decodeConnective_eq_valid_iff hv).1) hjoiner

end

variable {floats : Float → Prop}

mutual

/-- What is read from a document is described by it, and no deeper than the levels allow. -/
theorem describes_of_ofValueWithin (v : Value) (hv : v.IsJson floats) {levels : Nat}
    {p : Predicate Value} (h : ofValueWithin levels v = .valid p) :
    Describes v (.ok p) ∧ p.depth ≤ levels := by
  match v with
  | .mapping entries =>
    obtain ⟨inside, kind, rfl, record, hfields, hbounds⟩ := record_of_ofValueWithin hv h
    exact describes_of_readFields hv record hfields hbounds
      (fun _ => describes_of_childAmong entries hv) fun _ _ => describes_of_childrenAmong entries hv
  | .null | .bool _ | .int _ | .float _ | .text _ | .list _ =>
    simp [ofValueWithin, Decoded.fault] at h
  | .bytes _ | .tuple _ | .set _ | .range .. | .stream _ | .operation _ | .connective _
  | .fragment .. | .predicate _ | .statement _ => exact hv.elim

theorem describes_of_childAmong (entries : List (Value × Value))
    (hentries : Value.EntriesJson floats entries) {levels : Nat} {q : Predicate Value}
    (h : childAmong levels entries = some (.valid q)) :
    ∃ v, Value.field? "child" entries = some v ∧ Describes v (.ok q) ∧ q.depth ≤ levels := by
  match entries with
  | [] => cases h
  | (key, value) :: rest =>
    obtain ⟨-, hvalue, hrest⟩ := hentries
    rw [childAmong] at h
    rw [Value.field?_cons]
    split at h
    · rename_i hkey
      rw [if_pos hkey]
      exact ⟨value, rfl, describes_of_ofValueWithin value hvalue (Option.some.inj h)⟩
    · rename_i hkey
      rw [if_neg hkey]
      exact describes_of_childAmong rest hrest h

theorem describes_of_childrenAmong (entries : List (Value × Value))
    (hentries : Value.EntriesJson floats entries) {levels : Nat} {q : Predicate Value}
    {qs : List (Predicate Value)} (h : childrenAmong levels entries = some (.valid (q, qs))) :
    ∃ items, Value.field? "children" entries = some (.list items) ∧
      DescribesAll items (q :: qs) ∧ depthOfAll (q :: qs) ≤ levels := by
  match entries with
  | [] => cases h
  | (key, value) :: rest =>
    obtain ⟨-, hvalue, hrest⟩ := hentries
    rw [childrenAmong] at h
    rw [Value.field?_cons]
    split at h
    · rename_i hkey
      rw [if_pos hkey]
      obtain ⟨items, rfl, children⟩ := describes_of_childrenOf value hvalue (Option.some.inj h)
      exact ⟨items, rfl, children⟩
    · rename_i hkey
      rw [if_neg hkey]
      exact describes_of_childrenAmong rest hrest h

theorem describes_of_childrenOf (v : Value) (hv : v.IsJson floats) {levels : Nat}
    {q : Predicate Value} {qs : List (Predicate Value)} (h : childrenOf levels v = .valid (q, qs)) :
    ∃ items, v = .list items ∧ DescribesAll items (q :: qs) ∧ depthOfAll (q :: qs) ≤ levels := by
  match v with
  | .list items =>
    rw [childrenOf, atLeastOne_eq_valid_iff] at h
    exact ⟨items, rfl, describesAll_of_ofValues items hv h⟩
  | .null | .bool _ | .int _ | .float _ | .text _ | .mapping _ =>
    simp [childrenOf, Decoded.fault] at h
  | .bytes _ | .tuple _ | .set _ | .range .. | .stream _ | .operation _ | .connective _
  | .fragment .. | .predicate _ | .statement _ => exact hv.elim

theorem describesAll_of_ofValues (items : List Value) (hitems : Value.AllJson floats items)
    {levels : Nat} {qs : List (Predicate Value)} (h : ofValues levels items = qs.map .valid) :
    DescribesAll items qs ∧ depthOfAll qs ≤ levels := by
  match items with
  | [] =>
    obtain rfl := List.map_eq_nil_iff.1 h.symm
    exact ⟨.nil, Nat.zero_le levels⟩
  | v :: rest =>
    cases qs with
    | nil => cases h
    | cons q qs =>
      obtain ⟨hfirst, hothers⟩ := List.cons.inj h
      obtain ⟨first, hfirst⟩ := describes_of_ofValueWithin v hitems.1 hfirst
      obtain ⟨others, hothers⟩ := describesAll_of_ofValues rest hitems.2 hothers
      exact ⟨.cons first others, Nat.max_le.2 ⟨hfirst, hothers⟩⟩

end

end Predicate

end BoundQuery
