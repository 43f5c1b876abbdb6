import BoundQuery.Proofs.Predicate.Shape
import BoundQuery.Proofs.Value.Json
import BoundQuery.Value.Document

/-!
# Values through documents

A value from a document, with finite numbers only, is written as the document that it comes from,
unless that has more levels than the writer allows. What is read back is the value itself.

## Main definitions

* `Value.document`: the document of a value without a limit.

## Main statements

* `Value.IsJson.documentWithin_eq`: a value is written within the levels of its document, and not
  with fewer.
* `Value.IsJson.ofDocument_document`: the document of a value reads back as the value.
* `Value.IsJson.same_self`: a value is equal to itself.
-/

namespace BoundQuery.Value

/-- Whether a number can be written as one. -/
def Finite (x : Float) : Prop := x.isFinite = true

mutual

/-- The document of a value that comes from one, whatever its levels. -/
def document : Value → Json
  | bool b => .bool b
  | int i => .int i
  | float x => .float x
  | text s => .text s
  | list items => .array (documents items)
  | mapping entries => .object (members entries)
  | _ => .null

def documents : List Value → List Json
  | [] => []
  | v :: rest => document v :: documents rest

def members : List (Value × Value) → List (String × Json)
  | [] => []
  | (key, value) :: rest => (key.text?.getD "", document value) :: members rest

end

theorem documents_eq_map (items : List Value) : documents items = items.map document := by
  induction items with
  | nil => rfl
  | cons v rest ih => simp [documents, ih]

/-! ## Writing within levels -/

/-- The outcome of writing with a limited number of levels. -/
def writtenWithin {α : Type} (limit needed : Nat) (a : α) : Except Failure α :=
  if needed ≤ limit then .ok a else .error .tooDeep

theorem writtenWithin_succ {α : Type} (limit needed : Nat) (a : α) :
    writtenWithin (limit + 1) (needed + 1) a = writtenWithin limit needed a := by
  simp [writtenWithin]

theorem map_writtenWithin {α β : Type} (f : α → β) (limit needed : Nat) (a : α) :
    f <$> writtenWithin limit needed a = writtenWithin limit needed (f a) := by
  unfold writtenWithin
  split <;> rfl

/-- Two parts are written when the one with more levels is. -/
theorem bind_writtenWithin {α β γ : Type} (limit : Nat) {m n : Nat} {a : α} {b : β}
    (f : α → β → γ) :
    (do
      let x ← writtenWithin limit m a
      return f x (← writtenWithin limit n b)) = writtenWithin limit (max m n) (f a b) := by
  unfold writtenWithin
  by_cases hm : m ≤ limit
  · by_cases hn : n ≤ limit
    · have hmax : max m n ≤ limit := Nat.max_le.2 ⟨hm, hn⟩
      simp only [hm, hn, hmax, if_true]
      rfl
    · have hmax : ¬ max m n ≤ limit := fun h => hn (Nat.max_le.1 h).2
      simp only [hm, hn, hmax, if_true, if_false]
      rfl
  · have hmax : ¬ max m n ≤ limit := fun h => hm (Nat.max_le.1 h).1
    simp only [hm, hmax, if_false]
    rfl

mutual

/-- A value is written with as many levels as its document has, and with fewer it is too deep. -/
theorem IsJson.documentWithin_eq {v : Value} (hv : v.IsJson Finite) (n : Nat) :
    documentWithin n v = writtenWithin n v.document.levels v.document := by
  match n, v with
  | 0, v =>
    have hlevels : ¬ v.document.levels ≤ 0 := Nat.not_le_of_lt v.document.one_le_levels
    rw [documentWithin, writtenWithin, if_neg hlevels]
  | n + 1, null => rfl
  | n + 1, bool _ => rfl
  | n + 1, int _ => rfl
  | n + 1, text _ => rfl
  | n + 1, float x =>
    have hx : x.isFinite = true := hv
    simp [documentWithin, hx, writtenWithin, document, Json.levels]
  | n + 1, list items =>
    rw [documentWithin, AllJson.documentsWithin_eq hv n, map_writtenWithin, document, Json.levels,
      writtenWithin_succ]
  | n + 1, mapping entries =>
    rw [documentWithin, EntriesJson.membersWithin_eq hv n, map_writtenWithin, document,
      Json.levels, writtenWithin_succ]

theorem AllJson.documentsWithin_eq {items : List Value} (hitems : AllJson Finite items) (n : Nat) :
    documentsWithin n items =
      writtenWithin n (Json.levelsOfAll (documents items)) (documents items) := by
  match items with
  | [] => simp [documentsWithin, writtenWithin, documents, Json.levelsOfAll]
  | v :: rest =>
    rw [documentsWithin, IsJson.documentWithin_eq hitems.1 n,
      AllJson.documentsWithin_eq hitems.2 n]
    exact bind_writtenWithin n List.cons

theorem EntriesJson.membersWithin_eq {entries : List (Value × Value)}
    (hentries : EntriesJson Finite entries) (n : Nat) :
    membersWithin n entries =
      writtenWithin n (Json.levelsOfMembers (members entries)) (members entries) := by
  match entries with
  | [] => simp [membersWithin, writtenWithin, members, Json.levelsOfMembers]
  | (key, value) :: rest =>
    obtain ⟨⟨name, rfl, -⟩, hvalue, hrest⟩ := hentries
    rw [membersWithin, IsJson.documentWithin_eq hvalue n, EntriesJson.membersWithin_eq hrest n]
    exact bind_writtenWithin n fun d ds => (name, d) :: ds

end

/-! ## Reading back -/

/-- The value of a member under its name. -/
theorem field?_map (name : String) (members : List (String × Json)) :
    field? name (members.map fun m => (text m.1, ofDocument m.2)) =
      (members.lookup name).map ofDocument := by
  induction members with
  | nil => rfl
  | cons m rest ih =>
    rw [List.map_cons, field?_cons, isText_text, List.lookup_cons, ih, Bool.beq_comm]
    cases name == m.1 <;> rfl

theorem putFirst_of_field? {name : String} {value : Value} {entries : List (Value × Value)}
    (h : field? name entries = none) :
    putFirst name value entries = (text name, value) :: entries := by
  rw [putFirst, h]

/-- Members with names that differ all become entries. -/
theorem ofMembers_eq_map {members : List (String × Json)} (h : (members.map Prod.fst).Nodup) :
    ofMembers members = members.map fun m => (text m.1, ofDocument m.2) := by
  induction members with
  | nil => rfl
  | cons m rest ih =>
    obtain ⟨name, d⟩ := m
    obtain ⟨hname, hrest⟩ := List.nodup_cons.1 h
    rw [ofMembers, ih hrest, List.map_cons]
    have hlookup : rest.lookup name = none := by
      refine List.lookup_eq_none_iff.2 fun m hm => bne_iff_ne.2 fun hne => hname ?_
      rw [hne]
      exact List.mem_map.2 ⟨m, hm, rfl⟩
    exact putFirst_of_field? (by rw [field?_map, hlookup, Option.map_none])

mutual

/-- The document of a value reads back as the value. -/
theorem IsJson.ofDocument_document {floats : Float → Prop} {v : Value} (hv : v.IsJson floats) :
    ofDocument v.document = v := by
  match v with
  | null => rfl
  | bool _ => rfl
  | int _ => rfl
  | float _ => rfl
  | text _ => rfl
  | list items => rw [document, ofDocument, AllJson.ofDocuments_documents hv]
  | mapping entries => rw [document, ofDocument, EntriesJson.ofMembers_members hv]

theorem AllJson.ofDocuments_documents {floats : Float → Prop} {items : List Value}
    (hitems : AllJson floats items) : ofDocuments (documents items) = items := by
  match items with
  | [] => rfl
  | v :: rest =>
    rw [documents, ofDocuments, IsJson.ofDocument_document hitems.1,
      AllJson.ofDocuments_documents hitems.2]

theorem EntriesJson.ofMembers_members {floats : Float → Prop} {entries : List (Value × Value)}
    (hentries : EntriesJson floats entries) : ofMembers (members entries) = entries := by
  match entries with
  | [] => rfl
  | (key, value) :: rest =>
    obtain ⟨⟨name, rfl, hname⟩, hvalue, hrest⟩ := hentries
    rw [members, ofMembers, IsJson.ofDocument_document hvalue,
      EntriesJson.ofMembers_members hrest]
    exact putFirst_of_field? hname

end

/-! ## Equality -/

/-- A finite number is equal to itself. -/
theorem beq_self_of_finite {x : Float} (h : Finite x) : (x == x) = true := by
  have hcompare : ∀ u : Float.Model.UnpackedFloat, u.isFinite = true → u.beq u = true := by
    intro u hu
    cases u with
    | notANumber => cases hu
    | infinity => cases hu
    | zero => rfl
    | finite sign m e hm =>
      have horder : (compare e e).then (compare m m) = .eq := by simp
      cases sign with
      | positive => exact congrArg (fun o => some o == some Ordering.eq) horder
      | negative => exact congrArg (fun o => some o.swap == some Ordering.eq) horder
  exact hcompare x.toModel.unpack h

/-- Every entry of a mapping is among its entries. -/
theorem entriesWithin_of_forall {xs ys : List (Value × Value)}
    (h : ∀ e ∈ xs, e ∈ ys ∧ same e.1 e.1 = true ∧ same e.2 e.2 = true) :
    entriesWithin xs ys = true := by
  induction xs with
  | nil => rw [entriesWithin]
  | cons e rest ih =>
    obtain ⟨hmem, hkey, hvalue⟩ := h e List.mem_cons_self
    rw [entriesWithin, ih fun e' he' => h e' (List.mem_cons_of_mem _ he'), Bool.and_true,
      List.any_eq_true]
    exact ⟨e, hmem, by rw [hkey, hvalue]; rfl⟩

mutual

/-- A value from a document with finite numbers is equal to itself. -/
theorem IsJson.same_self {v : Value} (hv : v.IsJson Finite) : v.same v = true := by
  match v with
  | null => rw [same]
  | bool _ => simp [same, text?, number?, sameNumber]
  | int _ => simp [same, text?, number?, sameNumber]
  | float _ => simpa [same, text?, number?, sameNumber] using beq_self_of_finite hv
  | text _ => simp [same, text?]
  | list items => rw [same, AllJson.sameAll_self hv]
  | mapping entries =>
    have hall := EntriesJson.same_self hv
    rw [same, beq_self_eq_true, Bool.true_and]
    exact entriesWithin_of_forall fun e he => ⟨he, hall e he⟩

theorem AllJson.sameAll_self {items : List Value} (hitems : AllJson Finite items) :
    sameAll items items = true := by
  match items with
  | [] => rw [sameAll]
  | v :: rest =>
    rw [sameAll, IsJson.same_self hitems.1, AllJson.sameAll_self hitems.2]
    rfl

theorem EntriesJson.same_self {entries : List (Value × Value)}
    (hentries : EntriesJson Finite entries) :
    ∀ e ∈ entries, same e.1 e.1 = true ∧ same e.2 e.2 = true := by
  match entries with
  | [] => simp
  | (key, value) :: rest =>
    obtain ⟨⟨name, rfl, -⟩, hvalue, hrest⟩ := hentries
    have hkey : same (text name) (text name) = true := by simp [same, text?]
    intro e he
    rcases List.mem_cons.1 he with rfl | he
    · exact ⟨hkey, IsJson.same_self hvalue⟩
    · exact EntriesJson.same_self hrest e he

end

end BoundQuery.Value
