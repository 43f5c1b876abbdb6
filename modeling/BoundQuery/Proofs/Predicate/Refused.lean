import BoundQuery.Proofs.Predicate.Described
import BoundQuery.Proofs.Statement.Change

/-!
# Data that is refused

Reading a predicate from a document ends in a predicate or in the issues of the document, and the
issues are reported as an unusable argument. There is one exception: a tag that is itself a list or
a mapping cannot be looked up, and a reading that comes to such a tag stops there with a failure of
another family. A reading comes to the tag of the document and to those of the conditions inside
it, as far as the shapes above them have conditions and the levels that are read go, whatever else
is wrong with the document.

## Main definitions

* `Decoded.Stops`: a reading that stopped.
* `Predicate.MeetsCompositeTag`: documents whose reading comes to a tag that is a list or a mapping.
* `Predicate.ReadOrReported`: what should become of any document.

## Main statements

* `Predicate.stops_ofValueWithin_iff`: the documents whose reading stops.
* `Predicate.reported_iff_no_composite_tag`: all others are read or reported, also where they are
  negated or attached.
-/

namespace BoundQuery

/-! ## Readings that stop -/

namespace Decoded

variable {α β : Type} {d : Decoded α}

/-- A reading met a tag that cannot be looked up. -/
def Stops (d : Decoded α) : Prop := ∃ kind, d = unhashable kind

@[simp] theorem stops_unhashable {kind : String} : (unhashable kind : Decoded α).Stops :=
  ⟨kind, rfl⟩

@[simp] theorem not_stops_valid {a : α} : ¬ (valid a).Stops := by simp [Stops]

@[simp] theorem not_stops_invalid {issues : List Issue} :
    ¬ (invalid issues : Decoded α).Stops := by
  simp [Stops]

@[simp] theorem not_stops_fault {cause : Issue.Cause} : ¬ (fault cause : Decoded α).Stops :=
  not_stops_invalid

@[simp] theorem stops_under_iff {step : Issue.Step} : (d.under step).Stops ↔ d.Stops := by
  cases d <;> simp [under]

theorem stops_andThen_iff {f : α → Decoded β} :
    (d.andThen f).Stops ↔ d.Stops ∨ ∃ a, d = valid a ∧ (f a).Stops := by
  cases d <;> simp [andThen]

/-- Two parts that are read in order stop where either does, whatever the issues of the other. -/
@[simp] theorem stops_both_iff {f : Decoded (α → β)} {a : Unit → Decoded α} :
    (both f a).Stops ↔ f.Stops ∨ (a ()).Stops := by
  unfold both
  cases f <;> cases a () <;> simp

end Decoded

namespace Field

variable {α : Type} {name : String} {decode : Value → Decoded α} {entries : List (Value × Value)}

theorem not_stops_required (h : ∀ v, ¬ (decode v).Stops) :
    ¬ (required name decode entries).Stops := by
  unfold required
  split <;> simp [h]

theorem not_stops_optional {absent : α} (h : ∀ v, ¬ (decode v).Stops) :
    ¬ (optional name absent decode entries).Stops := by
  unfold optional
  split <;> simp [h]

@[simp] theorem not_stops_noneBeyond {known : List String} :
    ¬ (noneBeyond known entries).Stops := by
  unfold noneBeyond
  split <;> simp

end Field

/-! ## Fields without conditions -/

namespace Value

/-- A value is a list or a mapping, which cannot be looked up in a table. -/
def Composite : Value → Prop
  | list _ | mapping _ => True
  | _ => False

variable {v : Value}

theorem not_stops_decodeText : ¬ v.decodeText.Stops := by
  unfold decodeText
  repeat' split
  all_goals simp

theorem not_stops_truthOfText {s : String} : ¬ (truthOfText s).Stops := by
  simp only [truthOfText]
  repeat' split
  all_goals simp

theorem not_stops_truthOfInt {i : Int} : ¬ (truthOfInt i).Stops := by
  unfold truthOfInt
  repeat' split
  all_goals simp

theorem not_stops_decodeTruth : ¬ v.decodeTruth.Stops := by
  unfold decodeTruth truthOfFloat
  repeat' split
  all_goals simp [not_stops_truthOfText, not_stops_truthOfInt]

end Value

namespace Predicate

section

variable {α : Type} {v : Value}

theorem not_stops_decodeTag {kind : Kind} : ¬ (decodeTag kind v).Stops := by
  unfold decodeTag
  repeat' split
  all_goals simp

theorem not_stops_decodeComparison : ¬ (decodeComparison v).Stops := by
  rw [decodeComparison, Decoded.stops_andThen_iff]
  rintro (h | ⟨s, -, h⟩)
  · exact Value.not_stops_decodeText h
  · cases hs : Comparison.ofSymbol? s <;> simp [hs] at h

theorem not_stops_decodeConnective : ¬ (decodeConnective v).Stops := by
  unfold decodeConnective connectiveOfText
  repeat' split
  all_goals simp

theorem not_stops_decodeOperands : ¬ (decodeOperands v).Stops := by
  unfold decodeOperands
  split <;> simp

theorem not_stops_withBounds {p : Predicate Value} : ¬ (withBounds p).Stops := by
  unfold withBounds
  repeat' split
  all_goals simp

/-! ## Fields with conditions -/

/-- Where no level is left there is an issue, and the reading goes on. -/
theorem stops_descend_iff {levels : Nat} {read : Nat → Decoded α} :
    (descend levels read).Stops ↔ ∃ inside, levels = inside + 1 ∧ (read inside).Stops := by
  cases levels <;> simp [descend]

theorem stops_requiredField_iff {name : String} {found : Option (Decoded α)} :
    (requiredField name found).Stops ↔ ∃ d, found = some d ∧ d.Stops := by
  cases found <;> simp [requiredField]

/-- The items of a list stop its reading where one of them does. -/
theorem stops_itemsFrom_iff (index : Nat) {items : List (Decoded α)} :
    (itemsFrom index items).Stops ↔ ∃ d ∈ items, d.Stops := by
  induction items generalizing index with
  | nil => simp [itemsFrom]
  | cons item rest ih => simp [itemsFrom, ih]

theorem stops_atLeastOne_iff {items : List (Decoded α)} :
    (atLeastOne items).Stops ↔ ∃ d ∈ items, d.Stops := by
  rw [← stops_itemsFrom_iff 0]
  unfold atLeastOne
  cases itemsFrom 0 items with
  | valid as => cases as <;> simp
  | invalid issues => dsimp only; split <;> simp
  | unhashable kind => simp

/-- Of all the fields of a shape, those that hold conditions alone can stop a reading. -/
theorem stops_ofFields_iff {kind : Kind} {entries : List (Value × Value)}
    {child : Option (Decoded (Predicate Value))}
    {children : Option (Decoded (Predicate Value × List (Predicate Value)))} :
    (ofFields kind entries child children).Stops ↔
      (kind = .not ∧ ∃ d, child = some d ∧ d.Stops) ∨
        (kind = .junction ∧ ∃ d, children = some d ∧ d.Stops) := by
  have htag : ¬ (Field.optional "kind" () (decodeTag kind) entries).Stops :=
    Field.not_stops_optional fun _ => not_stops_decodeTag
  have htext : ¬ (Field.required "expr" Value.decodeText entries).Stops :=
    Field.not_stops_required fun _ => Value.not_stops_decodeText
  have hvalue (name : String) : ¬ (Field.required name .valid entries).Stops :=
    Field.not_stops_required fun _ => Decoded.not_stops_valid
  have hfields : (ofFields kind entries child children).Stops ↔
      (readFields kind entries child children).Stops := by
    simp [ofFields, Decoded.stops_andThen_iff, not_stops_withBounds, htag]
  rw [hfields]
  cases kind with
  | comparison =>
    have hop : ¬ (Field.required "op" decodeComparison entries).Stops :=
      Field.not_stops_required fun _ => not_stops_decodeComparison
    simp [readFields, hop, htext, hvalue]
  | between => simp [readFields, htext, hvalue]
  | isIn =>
    have hvalues : ¬ (Field.optional "values" [] decodeOperands entries).Stops :=
      Field.not_stops_optional fun _ => not_stops_decodeOperands
    simp [readFields, htext, hvalues]
  | nullCheck =>
    have hnegated : ¬ (Field.optional "negated" false Value.decodeTruth entries).Stops :=
      Field.not_stops_optional fun _ => Value.not_stops_decodeTruth
    simp [readFields, htext, hnegated]
  | not => simp [readFields, stops_requiredField_iff]
  | junction =>
    have hjoiner : ¬ (Field.required "joiner" decodeConnective entries).Stops :=
      Field.not_stops_required fun _ => not_stops_decodeConnective
    simp [readFields, stops_requiredField_iff, hjoiner]

end

/-! ## Documents whose reading stops -/

/-- Reading a value with so many levels comes to a tag that is a list or a mapping. Of what is inside
a record of the last level the tag is looked up still. -/
inductive MeetsCompositeTag : Nat → Value → Prop where
  | tag {levels : Nat} {entries : List (Value × Value)} {v : Value}
      (htag : Value.field? "kind" entries = some v) (composite : v.Composite) :
      MeetsCompositeTag levels (.mapping entries)
  | child {levels : Nat} {entries : List (Value × Value)} {v : Value}
      (htag : Value.field? "kind" entries = some (.text Kind.not.tag))
      (hchild : Value.field? "child" entries = some v) (inside : MeetsCompositeTag levels v) :
      MeetsCompositeTag (levels + 1) (.mapping entries)
  | children {levels : Nat} {entries : List (Value × Value)} {items : List Value} {v : Value}
      (htag : Value.field? "kind" entries = some (.text Kind.junction.tag))
      (hchildren : Value.field? "children" entries = some (.list items)) (hv : v ∈ items)
      (inside : MeetsCompositeTag levels v) : MeetsCompositeTag (levels + 1) (.mapping entries)

section

variable {floats : Float → Prop}

/-- Of the tags of documents, lists and mappings alone cannot be looked up. -/
theorem stops_tagOf_iff {entries : List (Value × Value)}
    (hentries : Value.EntriesJson floats entries) :
    (tagOf entries).Stops ↔ ∃ v, Value.field? "kind" entries = some v ∧ v.Composite := by
  unfold tagOf
  cases hfield : Value.field? "kind" entries with
  | none => simp
  | some v =>
    have hv := hentries.of_field? hfield
    cases v with
    | text s =>
      cases h : Kind.ofTag? s <;> simp [Value.unhashable?, Value.text?, Value.Composite, h]
    | null | bool _ | int _ | float _ | list _ | mapping _ =>
      simp [Value.unhashable?, Value.text?, Value.Composite]
    | _ => cases hv

theorem tagOf_eq_valid_iff {entries : List (Value × Value)}
    (hentries : Value.EntriesJson floats entries) {kind : Kind} :
    tagOf entries = .valid kind ↔ Value.field? "kind" entries = some (.text kind.tag) :=
  ⟨field?_of_tagOf hentries, tagOf_of_field?⟩

/-- A record stops its reading by its own tag, or by the conditions that its shape has. -/
theorem stops_mapping_iff {entries : List (Value × Value)}
    (hentries : Value.EntriesJson floats entries) {levels : Nat} :
    (ofValueWithin levels (.mapping entries)).Stops ↔
      (∃ v, Value.field? "kind" entries = some v ∧ v.Composite) ∨
      ∃ inside, levels = inside + 1 ∧
        (Value.field? "kind" entries = some (.text Kind.not.tag) ∧
            (∃ d, childAmong inside entries = some d ∧ d.Stops) ∨
          Value.field? "kind" entries = some (.text Kind.junction.tag) ∧
            ∃ d, childrenAmong inside entries = some d ∧ d.Stops) := by
  rw [ofValueWithin, Decoded.stops_andThen_iff, stops_tagOf_iff hentries]
  refine or_congr_right ?_
  simp only [Decoded.stops_under_iff, stops_descend_iff, stops_ofFields_iff,
    tagOf_eq_valid_iff hentries]
  constructor
  · rintro ⟨kind, htag, inside, hlevels, ⟨rfl, h⟩ | ⟨rfl, h⟩⟩
    · exact ⟨inside, hlevels, .inl ⟨htag, h⟩⟩
    · exact ⟨inside, hlevels, .inr ⟨htag, h⟩⟩
  · rintro ⟨inside, hlevels, ⟨htag, h⟩ | ⟨htag, h⟩⟩
    · exact ⟨.not, htag, inside, hlevels, .inl ⟨rfl, h⟩⟩
    · exact ⟨.junction, htag, inside, hlevels, .inr ⟨rfl, h⟩⟩

mutual

/-- The reading of a document stops exactly when it comes to a tag that is a list or a mapping. -/
theorem stops_ofValueWithin_iff (v : Value) (hv : v.IsJson floats) (levels : Nat) :
    (ofValueWithin levels v).Stops ↔ MeetsCompositeTag levels v := by
  match v with
  | .mapping entries =>
    rw [stops_mapping_iff hv]
    constructor
    · rintro (⟨v, htag, h⟩ | ⟨inside, rfl, ⟨htag, h⟩ | ⟨htag, h⟩⟩)
      · exact .tag htag h
      · obtain ⟨v, hchild, h⟩ := (stops_childAmong_iff entries hv inside).1 h
        exact .child htag hchild h
      · obtain ⟨items, hchildren, v, hmem, h⟩ := (stops_childrenAmong_iff entries hv inside).1 h
        exact .children htag hchildren hmem h
    · rintro (⟨htag, h⟩ | ⟨htag, hchild, h⟩ | ⟨htag, hchildren, hmem, h⟩)
      · exact .inl ⟨_, htag, h⟩
      · exact .inr ⟨_, rfl, .inl ⟨htag, (stops_childAmong_iff entries hv _).2 ⟨_, hchild, h⟩⟩⟩
      · exact .inr ⟨_, rfl, .inr ⟨htag,
          (stops_childrenAmong_iff entries hv _).2 ⟨_, hchildren, _, hmem, h⟩⟩⟩
  | .null | .bool _ | .int _ | .float _ | .text _ | .list _ =>
    simp only [ofValueWithin, Decoded.not_stops_fault, false_iff]
    rintro ⟨⟩
  | .bytes _ | .tuple _ | .set _ | .range .. | .stream _ | .operation _ | .connective _
  | .fragment .. | .predicate _ | .statement _ => exact hv.elim

theorem stops_childAmong_iff (entries : List (Value × Value))
    (hentries : Value.EntriesJson floats entries) (levels : Nat) :
    (∃ d, childAmong levels entries = some d ∧ d.Stops) ↔
      ∃ v, Value.field? "child" entries = some v ∧ MeetsCompositeTag levels v := by
  match entries with
  | [] => simp [childAmong]
  | (key, value) :: rest =>
    obtain ⟨-, hvalue, hrest⟩ := hentries
    rw [childAmong, Value.field?_cons]
    split
    · simp [stops_ofValueWithin_iff value hvalue]
    · exact stops_childAmong_iff rest hrest levels

theorem stops_childrenAmong_iff (entries : List (Value × Value))
    (hentries : Value.EntriesJson floats entries) (levels : Nat) :
    (∃ d, childrenAmong levels entries = some d ∧ d.Stops) ↔
      ∃ items, Value.field? "children" entries = some (.list items) ∧
        ∃ v ∈ items, MeetsCompositeTag levels v := by
  match entries with
  | [] => simp [childrenAmong]
  | (key, value) :: rest =>
    obtain ⟨-, hvalue, hrest⟩ := hentries
    rw [childrenAmong, Value.field?_cons]
    split
    · simp [stops_childrenOf_iff value hvalue]
    · exact stops_childrenAmong_iff rest hrest levels

theorem stops_childrenOf_iff (v : Value) (hv : v.IsJson floats) (levels : Nat) :
    (childrenOf levels v).Stops ↔
      ∃ items, v = .list items ∧ ∃ w ∈ items, MeetsCompositeTag levels w := by
  match v with
  | .list items =>
    rw [childrenOf, stops_atLeastOne_iff, stops_ofValues_iff items hv levels]
    simp
  | .null | .bool _ | .int _ | .float _ | .text _ | .mapping _ => simp [childrenOf]
  | .bytes _ | .tuple _ | .set _ | .range .. | .stream _ | .operation _ | .connective _
  | .fragment .. | .predicate _ | .statement _ => exact hv.elim

theorem stops_ofValues_iff (items : List Value) (hitems : Value.AllJson floats items)
    (levels : Nat) :
    (∃ d ∈ ofValues levels items, d.Stops) ↔ ∃ v ∈ items, MeetsCompositeTag levels v := by
  match items with
  | [] => simp [ofValues]
  | v :: rest =>
    simp only [ofValues, List.exists_mem_cons_iff, stops_ofValueWithin_iff v hitems.1 levels,
      stops_ofValues_iff rest hitems.2 levels]

end

end

/-! ## Reports -/

/-- A value is or describes a predicate, or it is reported as the argument that does not. -/
def ReadOrReported (v : Value) : Prop :=
  (∃ p, ofValue? v = .ok p) ∨
    ∃ failure, ofValue? v = .error failure ∧ failure.family = .argument ∧
      failure.argument? = some "predicate"

theorem readOrReported_iff_not_stops {v : Value} : ReadOrReported v ↔ ¬ (ofValue v).Stops := by
  unfold ReadOrReported ofValue?
  cases ofValue v with
  | valid p => simp [Decoded.toExcept]
  | invalid issues => simp [Decoded.toExcept, Failure.family, Failure.argument?]
  | unhashable kind => simp [Decoded.toExcept, Failure.family]

namespace ReadOrReported

variable {v : Value} {failure : Failure}

theorem of_error (h : ReadOrReported v) (hfailure : ofValue? v = .error failure) :
    failure.family = .argument ∧ failure.argument? = some "predicate" := by
  rcases h with ⟨p, hp⟩ | ⟨reported, hreport, hreported⟩
  · rw [hp] at hfailure
    cases hfailure
  · rw [hreport] at hfailure
    cases hfailure
    exact hreported

theorem of_negate_error (h : ReadOrReported v) (hfailure : Compose.negate v = .error failure) :
    failure.family = .argument ∧ failure.argument? = some "predicate" := by
  rw [Compose.negate] at hfailure
  rcases hread : ofValue? v with refused | p
  · rw [hread] at hfailure
    cases hfailure
    exact h.of_error hread
  · rw [hread] at hfailure
    cases hfailure

/-- What is read may still be refused where it is attached, for an IN without values. -/
theorem family_of_attach_error (h : ReadOrReported v) {filter : Filter} {connective : Connective}
    {resolve : Resolver} {s : Statement}
    (hfailure : (((Call.attach filter connective v).perform resolve).run s).result =
      .error failure) : failure.family = .argument := by
  rw [Call.result_perform] at hfailure
  rcases hchange : (Call.attach filter connective v).change resolve s.settings with
    refused | change
  · rw [hchange] at hfailure
    cases hfailure
    rcases Call.error_of_change_attach hchange with hread | ⟨expr, rfl⟩
    · exact (h.of_error hread).1
    · rfl
  · rw [hchange] at hfailure
    cases hfailure

end ReadOrReported

/-- A document is read or reported unless its reading comes to a tag that is a list or a mapping;
then there is a failure of a type. What is read or reported can be negated and attached, and that
fails with an unusable argument at most. -/
theorem reported_iff_no_composite_tag {v : Value} (hv : v.IsJson fun _ => True) :
    (ReadOrReported v ↔ ¬ MeetsCompositeTag maxDepth v) ∧
    (MeetsCompositeTag maxDepth v →
      ∃ failure, ofValue? v = .error failure ∧ failure.family = .type) ∧
    (¬ MeetsCompositeTag maxDepth v →
      (∀ failure, Compose.negate v = .error failure →
        failure.family = .argument ∧ failure.argument? = some "predicate") ∧
      ∀ filter connective resolve s failure,
        (((Call.attach filter connective v).perform resolve).run s).result = .error failure →
          failure.family = .argument) := by
  have hstops : (ofValue v).Stops ↔ MeetsCompositeTag maxDepth v :=
    stops_ofValueWithin_iff v hv maxDepth
  have hreported : ReadOrReported v ↔ ¬ MeetsCompositeTag maxDepth v := by
    rw [readOrReported_iff_not_stops, hstops]
  refine ⟨hreported, ?_, ?_⟩
  · intro hmeets
    obtain ⟨kind, hkind⟩ := hstops.2 hmeets
    exact ⟨.unhashable kind, by rw [ofValue?, hkind]; rfl, rfl⟩
  · intro hmeets
    have hread := hreported.2 hmeets
    exact ⟨fun _ => hread.of_negate_error, fun _ _ _ _ _ => hread.family_of_attach_error⟩

/-- A negation of data with an unknown tag. -/
def unknownShape : Value :=
  .mapping [(.text "kind", .text "not"),
    (.text "child", .mapping [(.text "kind", .text "regexp"), (.text "expr", .text "a")])]

theorem unknownShape_reported :
    unknownShape.IsJson (fun _ => True) ∧ ReadOrReported unknownShape := by
  have hv : unknownShape.IsJson fun _ => True := by
    simp [unknownShape, Value.IsJson, Value.EntriesJson]
  refine ⟨hv, (reported_iff_no_composite_tag hv).1.2 ?_⟩
  rw [← stops_ofValueWithin_iff unknownShape hv]
  rintro ⟨kind, hkind⟩
  cases hkind

def listTagged : Value := .mapping [(.text "kind", .list [])]

/-- A list as tag is a failure of a type, and no argument is reported. -/
theorem listTagged_not_reported :
    listTagged.IsJson (fun _ => True) ∧ ofValue? listTagged = .error (.unhashable "list") ∧
      (Failure.unhashable "list").family = .type ∧ ¬ ReadOrReported listTagged := by
  refine ⟨?_, rfl, rfl, ?_⟩
  · simp [listTagged, Value.IsJson, Value.EntriesJson, Value.AllJson]
  · rw [readOrReported_iff_not_stops]
    exact fun h => h ⟨"list", rfl⟩

end Predicate

end BoundQuery
