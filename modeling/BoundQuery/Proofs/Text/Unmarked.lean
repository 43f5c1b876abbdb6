import BoundQuery.Clause
import BoundQuery.Proofs.Result

/-!
# Texts without placeholders

Where no raw text has a placeholder, no clause made of raw text has one: the words that clauses add
have none, and neither have displayed numbers.

## Main definitions

* `Unmarked`, `Value.Unmarked`: texts, and values that count as such texts, without placeholders.

## Main statements

* `unmarked_list`, `unmarked_limit`: the clauses.
-/

namespace BoundQuery

/-- No placeholder stands in a text. -/
def Unmarked (s : String) : Prop := '?' ∉ s.toList

instance : DecidablePred Unmarked := fun s => inferInstanceAs (Decidable ('?' ∉ s.toList))

@[simp] theorem unmarked_append {s t : String} : Unmarked (s ++ t) ↔ Unmarked s ∧ Unmarked t := by
  simp [Unmarked, not_or]

theorem unmarked_intercalate {separator : String} {texts : List String}
    (hseparator : Unmarked separator) (h : ∀ s ∈ texts, Unmarked s) :
    Unmarked (separator.intercalate texts) := by
  induction texts with
  | nil => simp [Unmarked]
  | cons s rest ih =>
    have hs := h s List.mem_cons_self
    have hrest := ih fun t ht => h t (List.mem_cons_of_mem _ ht)
    cases rest with
    | nil => simpa using hs
    | cons t more =>
      rw [String.intercalate_cons_cons, unmarked_append, unmarked_append]
      exact ⟨⟨hs, hseparator⟩, hrest⟩

namespace Value

/-- If a value counts as text, no placeholder stands in it. -/
def Unmarked (v : Value) : Prop := ∀ s, v.text? = some s → BoundQuery.Unmarked s

theorem unmarked_text {s : String} (h : BoundQuery.Unmarked s) : (text s).Unmarked := by
  intro t ht
  cases ht
  exact h

end Value

/-! ## Numbers -/

/-- The characters of written numbers: digits, signs, points, and the letter before an exponent. -/
private def Numeral (c : Char) : Prop := c.isDigit = true ∨ c ∈ ['-', '+', '.', 'e']

private theorem Numeral.ne_mark {c : Char} (h : Numeral c) : c ≠ '?' := by
  rintro rfl
  rcases h with h | h <;> revert h <;> decide

private theorem numeral_of_mem_toDigits {c : Char} {n : Nat} (h : c ∈ Nat.toDigits 10 n) :
    Numeral c := .inl (Nat.isDigit_of_mem_toDigits (by decide) (by decide) h)

private theorem numeral_of_mem_zeros {c : Char} {n : Nat} (h : c ∈ List.replicate n '0') :
    Numeral c := by
  rw [List.eq_of_mem_replicate h]
  exact .inl (by decide)

namespace Decimal

private theorem numeral_ofScaled (count : Nat) (unit : Int) :
    ∀ c ∈ (ofScaled count unit).digits, Numeral c := by
  intro c hc
  have hmem := List.mem_reverse.1 ((List.dropWhile_sublist _).mem (List.mem_reverse.1 hc))
  exact numeral_of_mem_toDigits hmem

end Decimal

private theorem numeral_shortest (p : FloatParts) : ∀ c ∈ p.shortest.digits, Numeral c := by
  have hzero : ∀ c ∈ Decimal.zero.digits, Numeral c := by
    intro c hc
    rw [List.mem_singleton.1 hc]
    exact .inl (by decide)
  unfold FloatParts.shortest
  by_cases hm : (p.mantissa == 0) = true
  · rw [if_pos hm]
    exact hzero
  · rw [if_neg hm]
    simp only
    generalize hfound : List.findSome? _ _ = found
    cases found with
    | none => exact hzero
    | some d =>
      obtain ⟨fewer, -, hd⟩ := List.exists_of_findSome?_eq_some hfound
      obtain ⟨count, -, rfl⟩ := Option.map_eq_some_iff.1 hd
      exact Decimal.numeral_ofScaled count _

namespace FloatStyle

private theorem numeral_positional {d : Decimal} (h : ∀ c ∈ d.digits, Numeral c) :
    ∀ c ∈ positional d, Numeral c := by
  have hpoint : Numeral '.' := .inr (by decide)
  have hzero : Numeral '0' := .inl (by decide)
  intro c hc
  unfold positional at hc
  simp only at hc
  split at hc
  · rcases List.mem_append.1 hc with hc | hc
    · rcases List.mem_cons.1 hc with rfl | hc
      · exact hzero
      · rcases List.mem_cons.1 hc with rfl | hc
        · exact hpoint
        · exact numeral_of_mem_zeros hc
    · exact h c hc
  · rcases List.mem_append.1 hc with hc | hc
    · rcases List.mem_append.1 hc with hc | hc
      · exact h c (List.mem_of_mem_take hc)
      · exact numeral_of_mem_zeros hc
    · rcases List.mem_cons.1 hc with rfl | hc
      · exact hpoint
      · split at hc
        · rw [List.mem_singleton.1 hc]
          exact hzero
        · exact h c (List.mem_of_mem_drop hc)

private theorem numeral_scientific {d : Decimal} (width : Nat) (h : ∀ c ∈ d.digits, Numeral c) :
    ∀ c ∈ scientific width d, Numeral c := by
  intro c hc
  unfold scientific at hc
  simp only [List.mem_append, List.mem_cons] at hc
  rcases hc with ((hc | hc) | (rfl | rfl | hc)) | hc
  · exact h c (List.mem_of_mem_take hc)
  · split at hc
    · cases hc
    · rcases List.mem_cons.1 hc with rfl | hc
      · exact .inr (by decide)
      · exact h c (List.mem_of_mem_drop hc)
  · exact .inr (by decide)
  · split <;> exact .inr (by decide)
  · exact numeral_of_mem_zeros hc
  · exact numeral_of_mem_toDigits hc

end FloatStyle

/-- No placeholder stands in a written number. -/
theorem unmarked_write_style (x : Float) : Unmarked (Value.style.write x) := by
  unfold FloatStyle.write
  split
  · next p _ =>
    have hdigits := numeral_shortest p
    have hwritten : ∀ c ∈ Value.style.writeDecimal p.shortest, Numeral c := by
      unfold FloatStyle.writeDecimal
      split
      · exact FloatStyle.numeral_positional hdigits
      · exact FloatStyle.numeral_scientific _ hdigits
    intro hmem
    rw [String.toList_ofList] at hmem
    rcases List.mem_append.1 hmem with hc | hc
    · split at hc <;> simp at hc
    · exact (hwritten _ hc).ne_mark rfl
  · simp only [Value.style]
    split
    · decide
    · split <;> decide

theorem unmarked_toString_int (i : Int) : Unmarked (toString i) := by
  have hnat : ∀ n : Nat, Unmarked n.repr := by
    intro n hn
    rw [Nat.toList_repr] at hn
    exact (numeral_of_mem_toDigits hn).ne_mark rfl
  cases i with
  | ofNat n => exact hnat n
  | negSucc n =>
    change Unmarked ("-" ++ Nat.repr (n + 1))
    rw [unmarked_append]
    exact ⟨by decide, hnat _⟩

/-- No placeholder stands in a displayed number. -/
theorem Value.unmarked_display_of_ordered {resolve : Resolver} {v : Value} {symbol t : String}
    {n : Int ⊕ Float} (h : v.ordered symbol = .ok n) (ht : v.display resolve = .ok t) :
    BoundQuery.Unmarked t := by
  cases v with
  | bool b =>
    cases ht
    cases b <;> decide
  | int i =>
    cases ht
    exact unmarked_toString_int i
  | float x =>
    cases ht
    exact unmarked_write_style x
  | _ => cases h

/-! ## Clauses -/

namespace Clause

theorem mem_textsFrom {index : Nat} {items : List Value} {texts : List String}
    (h : textsFrom index items = .ok texts) {s : String} (hs : s ∈ texts) :
    ∃ v ∈ items, v.text? = some s := by
  induction items generalizing index texts with
  | nil =>
    cases h
    cases hs
  | cons v rest ih =>
    unfold textsFrom at h
    cases hv : v.text? with
    | none => rw [hv] at h; cases h
    | some t =>
      rw [hv] at h
      obtain ⟨more, hmore, htexts⟩ := Result.bind_eq_ok.1 h
      cases htexts
      rcases List.mem_cons.1 hs with rfl | hs
      · exact ⟨v, List.mem_cons_self, hv⟩
      · obtain ⟨w, hw, hws⟩ := ih hmore hs
        exact ⟨w, List.mem_cons_of_mem _ hw, hws⟩

theorem unmarked_joinTexts {separator t : String} {items : List Value}
    (hseparator : Unmarked separator) (h : ∀ v ∈ items, v.Unmarked)
    (ht : joinTexts separator items = .ok t) : Unmarked t := by
  obtain ⟨texts, htexts, ht⟩ := Result.bind_eq_ok.1 ht
  cases ht
  refine unmarked_intercalate hseparator ?_
  intro s hs
  obtain ⟨v, hv, hvs⟩ := mem_textsFrom htexts hs
  exact h v hv s hvs

theorem unmarked_list {lead t : String} {items : List Value} (hlead : Unmarked lead)
    (h : ∀ v ∈ items, v.Unmarked) (ht : list lead items = .ok t) : Unmarked t := by
  unfold list at ht
  split at ht
  · cases ht
    decide
  · obtain ⟨joined, hjoined, ht⟩ := Result.bind_eq_ok.1 ht
    cases ht
    rw [unmarked_append]
    exact ⟨hlead, unmarked_joinTexts (by decide) h hjoined⟩

theorem unmarked_limit {resolve : Resolver} {count passed : Value} {t : String}
    (ht : limit resolve count passed = .ok t) : Unmarked t := by
  obtain ⟨n, hcount, ht⟩ := Result.bind_eq_ok.1 ht
  split at ht
  · cases ht
    decide
  · obtain ⟨m, hpassed, ht⟩ := Result.bind_eq_ok.1 ht
    split at ht
    · obtain ⟨shown, hshown, ht⟩ := Result.bind_eq_ok.1 ht
      obtain ⟨shown', hshown', ht⟩ := Result.bind_eq_ok.1 ht
      cases ht
      simp only [unmarked_append]
      exact ⟨⟨⟨by decide, Value.unmarked_display_of_ordered hcount hshown⟩, by decide⟩,
        Value.unmarked_display_of_ordered hpassed hshown'⟩
    · obtain ⟨shown, hshown, ht⟩ := Result.bind_eq_ok.1 ht
      cases ht
      rw [unmarked_append]
      exact ⟨by decide, Value.unmarked_display_of_ordered hcount hshown⟩

end Clause

end BoundQuery
