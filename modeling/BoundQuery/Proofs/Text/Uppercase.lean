import BoundQuery.Text.Uppercase
import Mathlib.Data.List.Basic
import Mathlib.Data.Nat.Bitwise

/-!
# Upper case is settled

What stands in the tables as an upper case form stands for itself in upper case. So a text that is
in upper case already stays as it is, and names that are alike in upper case are so for good.

That no upper case form has one of its own is checked for all forms in the tables. To look a code
point up in both tables at once, the listed ones are the binary digits of a number.

## Main definitions

* `Uppercase.listed`: the code points that the tables list.
* `Uppercase.Settled`: a code point of a character that the tables do not list.

## Main statements

* `uppercase_uppercase`: upper case changes nothing a second time.
-/

namespace BoundQuery

namespace Uppercase

/-- The code points of a span. -/
def Span.codes (r : Span) : List Nat :=
  (List.range ((r.last - r.first) / r.step + 1)).map fun i => r.first + r.step * i

theorem Span.mem_codes {r : Span} {code : Nat} (h : r.contains code = true) : code ∈ r.codes := by
  simp only [contains, Bool.and_eq_true, decide_eq_true_eq, beq_iff_eq] at h
  obtain ⟨⟨hfirst, hlast⟩, hstep⟩ := h
  refine List.mem_map.2 ⟨(code - r.first) / r.step, List.mem_range.2 ?_, ?_⟩
  · exact Nat.lt_succ_of_le (Nat.div_le_div_right (Nat.sub_le_sub_right hlast _))
  · rw [Nat.mul_div_cancel' (Nat.dvd_of_mod_eq_zero hstep)]
    omega

def listed : List Nat := expansions.map Prod.fst ++ spans.flatMap Span.codes

/-- The number whose binary digits stand for the listed code points. -/
def marks : Nat := listed.foldl (fun marks code => marks ||| 2 ^ code) 0

/-- A code point of a character that the tables do not list. -/
def Settled (code : Nat) : Prop := code.isValidChar ∧ marks.testBit code = false

instance : DecidablePred Settled := fun _ => inferInstanceAs (Decidable (_ ∧ _))

theorem testBit_foldl_or (codes : List Nat) (marks code : Nat) :
    (codes.foldl (fun marks code => marks ||| 2 ^ code) marks).testBit code =
      (marks.testBit code || decide (code ∈ codes)) := by
  induction codes generalizing marks with
  | nil => simp
  | cons c rest ih =>
    rw [List.foldl_cons, ih, Nat.testBit_or, Nat.testBit_two_pow, Bool.or_assoc]
    simp [eq_comm]

/-- What the tables do not list stands for itself. -/
theorem Settled.ofCode_eq {code : Nat} (h : Settled code) :
    code.isValidChar ∧ ofCode code = [code] := by
  obtain ⟨hvalid, hmark⟩ := h
  have hlisted : code ∉ listed := by
    simpa [marks, testBit_foldl_or] using hmark
  rw [listed, List.mem_append, not_or] at hlisted
  have hexpansions : expansions.lookup code = none := by
    rw [List.lookup_eq_none_iff]
    intro e he
    rw [bne_iff_ne]
    rintro rfl
    exact hlisted.1 (List.mem_map_of_mem he)
  have hspans : spans.find? (·.contains code) = none := by
    rw [List.find?_eq_none]
    intro r hr hcontains
    exact hlisted.2 (List.mem_flatMap.2 ⟨r, hr, Span.mem_codes hcontains⟩)
  exact ⟨hvalid, by simp only [ofCode, hexpansions, hspans]⟩

private theorem settled_of_expansions : ∀ e ∈ expansions, ∀ upper ∈ e.2, Settled upper := by
  decide +kernel

private theorem settled_of_spans :
    ∀ r ∈ spans, ∀ code ∈ r.codes, Settled (code + r.shift).toNat := by
  decide +kernel

/-- An upper case form consists of code points of characters that stand for themselves. -/
theorem ofCode_of_mem_ofCode {code upper : Nat} (hcode : code.isValidChar)
    (h : upper ∈ ofCode code) : upper.isValidChar ∧ ofCode upper = [upper] := by
  unfold ofCode at h
  split at h
  · next codes hlookup =>
    obtain ⟨before, after, hsplit, -⟩ := List.lookup_eq_some_iff.1 hlookup
    exact (settled_of_expansions (code, codes) (by simp [hsplit]) upper h).ofCode_eq
  · next hlookup =>
    split at h
    · next r hfind =>
      have hcontains := List.find?_some hfind
      rw [List.mem_singleton.1 h]
      exact (settled_of_spans r (List.mem_of_find?_eq_some hfind) code
        (Span.mem_codes hcontains)).ofCode_eq
    · next hfind =>
      rw [List.mem_singleton.1 h]
      exact ⟨hcode, by simp only [ofCode, hlookup, hfind]⟩

/-- The characters of an upper case form stand for themselves in upper case. -/
theorem ofChar_of_mem_ofChar {c upper : Char} (h : upper ∈ ofChar c) : ofChar upper = [upper] := by
  obtain ⟨code, hcode, rfl⟩ := List.mem_map.1 h
  obtain ⟨hvalid, hself⟩ := ofCode_of_mem_ofCode c.valid hcode
  have hround : (Char.ofNat code).toNat = code := by
    rw [Char.ofNat, dif_pos hvalid]
    rfl
  rw [ofChar, hround, hself]
  rfl

end Uppercase

/-- Upper case changes nothing a second time. -/
theorem uppercase_uppercase (s : String) : uppercase (uppercase s) = uppercase s := by
  simp only [uppercase, String.toList_ofList, List.flatMap_assoc]
  congr 1
  refine List.flatMap_congr fun c _ => ?_
  have hself : ∀ upper ∈ Uppercase.ofChar c, Uppercase.ofChar upper = [upper] :=
    fun upper h => Uppercase.ofChar_of_mem_ofChar h
  rw [List.flatMap_congr hself, List.flatMap_singleton']

end BoundQuery
