import BoundQuery.Statement.Basic
import Mathlib.Data.List.Basic

/-!
# The order of bound values

Sorting the bound values of a statement by their parts is stable, so it leaves the values of each
part in the order in which they came and puts the parts one after the other. A statement is
balanced when each of its bound values has a part and it is turned to its text; binding values and
taking them back goes wrong in any other.

## Main definitions

* `Statement.Balanced`: what holds of a statement between calls.
* `Statement.boundIn`: the bound values of one part.
* `Statement.bindAll`: values bound to one part.

## Main statements

* `Statement.boundInOrder_eq`: the values of the text, of the conditions on rows and of those on
  groups follow each other.
* `Statement.boundInOrder_perm`: no bound value of a balanced statement is lost or doubled.
-/

namespace BoundQuery

section SortByKey

variable {α : Type} (key : α → Nat)

private theorem key_trans (a b c : α) (hab : decide (key a ≤ key b) = true)
    (hbc : decide (key b ≤ key c) = true) : decide (key a ≤ key c) = true := by
  simp only [decide_eq_true_eq] at hab hbc ⊢
  omega

private theorem key_total (a b : α) :
    (decide (key a ≤ key b) || decide (key b ≤ key a)) = true := by
  simp only [Bool.or_eq_true, decide_eq_true_eq]
  omega

theorem pairwise_mergeSort_key (l : List α) :
    (l.mergeSort fun a b => key a ≤ key b).Pairwise fun a b => key a ≤ key b :=
  (List.pairwise_mergeSort (key_trans key) (key_total key) l).imp of_decide_eq_true

/-- A stable sort by a key leaves the elements of each key as they were. -/
theorem filter_mergeSort_key (k : Nat) (l : List α) :
    (l.mergeSort fun a b => key a ≤ key b).filter (fun a => key a = k) =
      l.filter fun a => key a = k := by
  have hsorted : (l.filter fun a => key a = k).Pairwise
      fun a b => decide (key a ≤ key b) = true := by
    rw [List.pairwise_filter]
    refine List.pairwise_of_forall_mem_list ?_
    intro a _ b _ ha hb
    simp only [decide_eq_true_eq] at ha hb ⊢
    omega
  -- Elements of one key are a sorted sublist, which a stable sort keeps as a sublist.
  have hsub := (List.sublist_mergeSort (key_trans key) (key_total key) hsorted
    List.filter_sublist).filter fun a => key a = k
  rw [List.filter_filter] at hsub
  simp only [Bool.and_self] at hsub
  refine (hsub.eq_of_length ?_).symm
  exact ((List.mergeSort_perm l _).filter _).length_eq.symm

end SortByKey

namespace Part

theorem rank_injective {a b : Part} (h : a.rank = b.rank) : a = b := by
  rcases a with _ | (_ | _) <;> rcases b with _ | (_ | _) <;> simp [rank] at h ⊢

/-- What is in the order of the parts consists of a piece for each of them. -/
theorem eq_append_of_sorted {α : Type} {l : List (Part × α)}
    (h : l.Pairwise fun a b => a.1.rank ≤ b.1.rank) :
    l = (l.filter fun a => a.1 = text) ++ (l.filter fun a => a.1 = conditions .rows) ++
      l.filter fun a => a.1 = conditions .groups := by
  induction l with
  | nil => rfl
  | cons a rest ih =>
    obtain ⟨ha, hrest⟩ := List.pairwise_cons.1 h
    have hnone : ∀ part : Part, part.rank < a.1.rank →
        (rest.filter fun b => b.1 = part) = [] := by
      intro part hlt
      refine List.filter_eq_nil_iff.2 ?_
      intro b hb he
      have := ha b hb
      simp only [decide_eq_true_eq] at he
      rw [he] at this
      omega
    have ih' := ih hrest
    rcases a with ⟨_ | (_ | _), value⟩
    · simpa using ih'
    · have htext := hnone text Nat.zero_lt_one
      rw [htext, List.nil_append] at ih'
      simpa [htext] using ih'
    · have htext := hnone text Nat.zero_lt_two
      have hrows := hnone (conditions .rows) Nat.one_lt_two
      rw [htext, hrows, List.nil_append, List.nil_append] at ih'
      simpa [htext, hrows] using ih'

end Part

namespace Statement

/-- Every bound value has a part, and the statement is turned to its text. -/
structure Balanced (s : Statement) : Prop where
  length_parts : s.parts.length = s.bound.length
  part_eq : s.part = .text

/-- The bound values of a part, as they came. -/
def boundIn (s : Statement) (part : Part) : List Value :=
  ((s.parts.zip s.bound).filter fun b => b.1 = part).map Prod.snd

/-- Bind values to a part. -/
def bindAll (s : Statement) (part : Part) (values : List Value) : Statement :=
  { s with bound := s.bound ++ values
           parts := s.parts ++ List.replicate values.length part }

theorem balanced_blank (label : Value) (settings : Settings) : (blank label settings).Balanced :=
  ⟨rfl, rfl⟩

theorem balanced_ofSource (source : Value) (settings : Settings) :
    (ofSource source settings).Balanced := ⟨rfl, rfl⟩

theorem Balanced.bindAll {s : Statement} (h : s.Balanced) (part : Part) (values : List Value) :
    (s.bindAll part values).Balanced :=
  ⟨by simp [Statement.bindAll, h.length_parts], h.part_eq⟩

theorem zip_replicate (part : Part) (values : List Value) :
    (List.replicate values.length part).zip values = values.map (Prod.mk part) := by
  induction values with
  | nil => rfl
  | cons value rest ih => simp [List.replicate_succ, ih]

/-- Values bound to a part come after those that it had; other parts keep theirs. -/
theorem boundIn_bindAll {s : Statement} (h : s.Balanced) (part other : Part)
    (values : List Value) :
    (s.bindAll part values).boundIn other =
      s.boundIn other ++ if part = other then values else [] := by
  simp only [boundIn, Statement.bindAll]
  rw [List.zip_append h.length_parts, zip_replicate, List.filter_append, List.map_append]
  by_cases hp : part = other
  · simp [hp, List.filter_map, Function.comp_def]
  · simp [hp, List.filter_map, Function.comp_def]

/-- The values of the text stand first, then those of the conditions on rows, then those of the
conditions on groups. -/
theorem boundInOrder_eq (s : Statement) :
    s.boundInOrder = s.boundIn .text ++ s.boundIn (.conditions .rows) ++
      s.boundIn (.conditions .groups) := by
  let sorted := (s.parts.zip s.bound).mergeSort fun a b => a.1.rank ≤ b.1.rank
  have hsorted : sorted.Pairwise fun a b => a.1.rank ≤ b.1.rank :=
    pairwise_mergeSort_key (fun b : Part × Value => b.1.rank) _
  have hfilter : ∀ part : Part, (sorted.filter fun b => b.1 = part) =
      (s.parts.zip s.bound).filter fun b => b.1 = part := by
    intro part
    have hkey : ∀ b : Part × Value, (b.1 = part) = (b.1.rank = part.rank) := by
      intro b
      exact propext ⟨congrArg Part.rank, Part.rank_injective⟩
    simp only [hkey]
    exact filter_mergeSort_key (fun b : Part × Value => b.1.rank) part.rank _
  change sorted.map Prod.snd = _
  rw [Part.eq_append_of_sorted hsorted]
  simp only [List.map_append, hfilter, boundIn]

theorem boundInOrder_perm {s : Statement} (h : s.Balanced) : s.boundInOrder.Perm s.bound := by
  have hmap : (s.parts.zip s.bound).map Prod.snd = s.bound :=
    List.map_snd_zip (Nat.le_of_eq h.length_parts.symm)
  have hperm : s.boundInOrder.Perm ((s.parts.zip s.bound).map Prod.snd) :=
    (List.mergeSort_perm _ _).map Prod.snd
  rwa [hmap] at hperm

end Statement

end BoundQuery
