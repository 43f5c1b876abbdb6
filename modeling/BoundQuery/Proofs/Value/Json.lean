import BoundQuery.Value.Decode

/-!
# Values from documents

A decoded document gives plain values only: the absent value, truth values, numbers, text, lists,
and mappings whose keys are texts, each key once.

## Main definitions

* `Value.IsJson`: whether a value can come from a decoded document.

## Main statements

* `Value.IsJson.of_field?`, `Value.IsJson.of_mem`: the parts of such a value are such values.
-/

namespace BoundQuery.Value

variable {floats : Float → Prop}

mutual

/-- Whether a value can come from a decoded document with such floating point numbers. -/
def IsJson (floats : Float → Prop) : Value → Prop
  | null | bool _ | int _ | text _ => True
  | float x => floats x
  | list items => AllJson floats items
  | mapping entries => EntriesJson floats entries
  | _ => False

def AllJson (floats : Float → Prop) : List Value → Prop
  | [] => True
  | v :: rest => IsJson floats v ∧ AllJson floats rest

def EntriesJson (floats : Float → Prop) : List (Value × Value) → Prop
  | [] => True
  | (key, value) :: rest =>
    (∃ name, key = text name ∧ field? name rest = none) ∧ IsJson floats value ∧
      EntriesJson floats rest

end

theorem allJson_iff {items : List Value} :
    AllJson floats items ↔ ∀ v ∈ items, v.IsJson floats := by
  induction items with
  | nil => simp [AllJson]
  | cons v rest ih => simp [AllJson, ih]

theorem EntriesJson.of_field? {entries : List (Value × Value)} (h : EntriesJson floats entries)
    {name : String} {v : Value} (hv : field? name entries = some v) : v.IsJson floats := by
  induction entries with
  | nil => cases hv
  | cons e rest ih =>
    obtain ⟨key, value⟩ := e
    obtain ⟨-, hvalue, hrest⟩ := h
    rw [field?_cons] at hv
    split at hv
    · cases hv
      exact hvalue
    · exact ih hrest hv

/-- The keys of an object are texts. -/
theorem EntriesJson.key {entries : List (Value × Value)} (h : EntriesJson floats entries)
    {e : Value × Value} (he : e ∈ entries) : ∃ name, e.1 = text name := by
  induction entries with
  | nil => cases he
  | cons first rest ih =>
    obtain ⟨⟨name, hname, -⟩, -, hrest⟩ := h
    rcases List.mem_cons.1 he with rfl | he
    · exact ⟨name, hname⟩
    · exact ih hrest he

/-! ## Readings of single values -/

section

variable {v : Value}

theorem IsJson.decodeText_eq_valid (hv : v.IsJson floats) {s : String} :
    v.decodeText = .valid s ↔ v = text s := by
  cases v <;> simp_all [IsJson, decodeText, text?, Decoded.fault]

theorem IsJson.operandList?_eq_some (hv : v.IsJson floats) {items : List Value} :
    v.operandList? = some items ↔ v = list items := by
  cases v <;> simp_all [IsJson, operandList?, items?]

end

end BoundQuery.Value
