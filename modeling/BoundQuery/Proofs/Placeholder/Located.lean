import BoundQuery.Proofs.Placeholder.Raw
import BoundQuery.Proofs.Predicate.Shape
import BoundQuery.Proofs.Statement.Events
import Mathlib.Data.List.Lex

/-!
# Operands and their places

An operand has a place in its predicate: the numbers of the children on the way down to its leaf,
and its own number there. A predicate whose operands carry their places is written and contributed
like any other, so its filled text says of each placeholder which operand it was written for, and a
sink learns of each operand where it came from. Both run through the places from left to right.

## Main definitions

* `Predicate.operandAt?`: the operand in a place.
* `Predicate.located`: a predicate whose operands carry their places.

## Main statements

* `Predicate.mem_operands_located_iff`: the operands of a located predicate are those in its places.
* `Predicate.pairwise_operands_located`: they stand from left to right.
* `Predicate.placeholders_follow_contribution`: each value that a sink takes stands for the
  placeholder that its own leaf has written for it.
-/

namespace BoundQuery.Predicate

variable {α β γ : Type}

/-- The operands that a leaf has itself. -/
def ownOperands : Predicate α → List α
  | comparison _ _ value => [value]
  | between _ start stop => [start, stop]
  | isIn _ values => values
  | nullCheck .. | not _ | junction .. => []

/-- The operand in a place: the way down goes from child to child, and ends at an operand of a
leaf. -/
def operandAt? : List Nat → Predicate α → Option α
  | [], _ => none
  | [i], p => p.ownOperands[i]?
  | i :: path, p => (p.children[i]?).bind (operandAt? path)

/-- An operand with its place in a child, seen from the parent. -/
def under (i : Nat) (o : List Nat × α) : List Nat × α := (i :: o.1, o.2)

mutual

/-- A predicate whose operands carry their places. -/
def located : Predicate α → Predicate (List Nat × α)
  | comparison op expr value => comparison op expr ([0], value)
  | between expr start stop => between expr ([0], start) ([1], stop)
  | isIn expr values => isIn expr (values.zipIdx.map fun e => ([e.2], e.1))
  | nullCheck expr negated => nullCheck expr negated
  | not child => not (child.located.map (under 0))
  | junction joiner first rest =>
    junction joiner (first.located.map (under 0)) (locatedFrom 1 rest)

/-- Children whose operands carry their places; the first child has the given number. -/
def locatedFrom (i : Nat) : List (Predicate α) → List (Predicate (List Nat × α))
  | [] => []
  | p :: rest => p.located.map (under i) :: locatedFrom (i + 1) rest

end

/-! ## A located predicate is the predicate, but for the places -/

mutual

theorem map_map (f : α → β) (g : β → γ) (p : Predicate α) :
    (p.map f).map g = p.map (g ∘ f) := by
  match p with
  | comparison .. | between .. | nullCheck .. => rfl
  | isIn _ values => simp only [map, List.map_map]
  | not child => simp only [map, map_map f g child]
  | junction _ first rest => simp only [map, map_map f g first, mapAll_mapAll f g rest]

theorem mapAll_mapAll (f : α → β) (g : β → γ) (ps : List (Predicate α)) :
    mapAll g (mapAll f ps) = mapAll (g ∘ f) ps := by
  match ps with
  | [] => rfl
  | p :: rest => simp only [mapAll, map_map f g p, mapAll_mapAll f g rest]

end

mutual

theorem map_snd_located (p : Predicate α) : p.located.map Prod.snd = p := by
  match p with
  | comparison .. | between .. | nullCheck .. => rfl
  | isIn _ values =>
    simp only [located, map, List.map_map]
    exact congrArg _ (List.zipIdx_map_fst 0 values)
  | not child =>
    have hchild : (child.located.map (under 0)).map Prod.snd = child := by
      rw [map_map]
      exact map_snd_located child
    simp only [located, map, hchild]
  | junction joiner first rest =>
    have hfirst : (first.located.map (under 0)).map Prod.snd = first := by
      rw [map_map]
      exact map_snd_located first
    simp only [located, map, hfirst, mapAll_snd_locatedFrom 1 rest]

theorem mapAll_snd_locatedFrom (i : Nat) (ps : List (Predicate α)) :
    mapAll Prod.snd (locatedFrom i ps) = ps := by
  match ps with
  | [] => rfl
  | p :: rest =>
    have hp : (p.located.map (under i)).map Prod.snd = p := by
      rw [map_map]
      exact map_snd_located p
    simp only [locatedFrom, mapAll, hp, mapAll_snd_locatedFrom (i + 1) rest]

end

@[simp] theorem sql_located (p : Predicate α) : p.located.sql = p.sql := by
  rw [← sql_map Prod.snd p.located, map_snd_located]

@[simp] theorem map_snd_operands_located (p : Predicate α) :
    p.located.operands.map Prod.snd = p.operands := by
  rw [← operands_map, map_snd_located]

/-! ## The places of a located predicate -/

theorem operands_located_of_leaf {p : Predicate α} (h : p.children = []) :
    p.located.operands = p.ownOperands.zipIdx.map fun e => ([e.2], e.1) := by
  cases p with
  | comparison | between | isIn | nullCheck => rfl
  | not | junction => cases h

/-- The places of a leaf are the numbers of its operands. -/
theorem operandAt?_of_leaf {p : Predicate α} (h : p.children = []) {path : List Nat} {v : α} :
    p.operandAt? path = some v ↔ ∃ i, path = [i] ∧ p.ownOperands[i]? = some v := by
  match path with
  | [] => simp [operandAt?]
  | [i] => simp [operandAt?]
  | i :: j :: path => simp [operandAt?, h]

theorem operandAt?_of_group {p : Predicate α} (h : p.ownOperands = []) {path : List Nat} {v : α} :
    p.operandAt? path = some v ↔
      ∃ i rest, path = i :: rest ∧ (p.children[i]?).bind (operandAt? rest) = some v := by
  match path with
  | [] => simp [operandAt?]
  | [i] => simp [operandAt?, h]
  | i :: j :: path => simp [operandAt?]

theorem mem_zipIdx_places_iff {vs : List α} {path : List Nat} {v : α} :
    (path, v) ∈ vs.zipIdx.map (fun e => ([e.2], e.1)) ↔ ∃ i, path = [i] ∧ vs[i]? = some v := by
  rw [List.mem_map]
  constructor
  · rintro ⟨⟨w, i⟩, hmem, h⟩
    cases h
    exact ⟨i, rfl, List.mem_zipIdx_iff_getElem?.1 hmem⟩
  · rintro ⟨i, rfl, hi⟩
    exact ⟨(v, i), List.mem_zipIdx_iff_getElem?.2 hi, rfl⟩

/-- The place of an operand that comes from a child starts with the number of the child. -/
theorem mem_map_under_iff {i : Nat} {os : List (List Nat × α)} {path : List Nat} {v : α} :
    (path, v) ∈ os.map (under i) ↔ ∃ rest, path = i :: rest ∧ (rest, v) ∈ os := by
  rw [List.mem_map]
  constructor
  · rintro ⟨⟨rest, w⟩, hmem, h⟩
    cases h
    exact ⟨rest, rfl, hmem⟩
  · rintro ⟨rest, rfl, hmem⟩
    exact ⟨(rest, v), hmem, rfl⟩

mutual

/-- The operands of a located predicate are those in its places. -/
theorem mem_operands_located_iff {p : Predicate α} {path : List Nat} {v : α} :
    (path, v) ∈ p.located.operands ↔ p.operandAt? path = some v := by
  match p with
  | comparison .. | between .. | isIn .. | nullCheck .. =>
    rw [operands_located_of_leaf rfl, mem_zipIdx_places_iff, operandAt?_of_leaf rfl]
  | not child =>
    rw [located, operands_not, operands_map, mem_map_under_iff, operandAt?_of_group rfl]
    simp only [mem_operands_located_iff (p := child)]
    constructor
    · rintro ⟨rest, rfl, hrest⟩
      exact ⟨0, rest, rfl, hrest⟩
    · rintro ⟨_ | i, rest, rfl, hrest⟩
      · exact ⟨rest, rfl, hrest⟩
      · cases hrest
  | junction joiner first rest =>
    rw [located, operands, List.mem_append, operands_map, mem_map_under_iff,
      mem_operandsOfAll_locatedFrom_iff, operandAt?_of_group rfl]
    simp only [mem_operands_located_iff (p := first)]
    constructor
    · rintro (⟨path, rfl, hpath⟩ | ⟨k, path, rfl, hpath⟩)
      · exact ⟨0, path, rfl, hpath⟩
      · exact ⟨1 + k, path, rfl, by rwa [Nat.add_comm]⟩
    · rintro ⟨_ | k, path, rfl, hpath⟩
      · exact .inl ⟨path, rfl, hpath⟩
      · exact .inr ⟨k, path, by rw [Nat.add_comm], hpath⟩

theorem mem_operandsOfAll_locatedFrom_iff {i : Nat} {ps : List (Predicate α)} {path : List Nat}
    {v : α} :
    (path, v) ∈ operandsOfAll (locatedFrom i ps) ↔
      ∃ k rest, path = (i + k) :: rest ∧ (ps[k]?).bind (operandAt? rest) = some v := by
  match ps with
  | [] => simp [locatedFrom, operandsOfAll]
  | p :: more =>
    rw [locatedFrom, operandsOfAll, List.mem_append, operands_map, mem_map_under_iff,
      mem_operandsOfAll_locatedFrom_iff]
    simp only [mem_operands_located_iff (p := p)]
    constructor
    · rintro (⟨path, rfl, hpath⟩ | ⟨k, path, rfl, hpath⟩)
      · exact ⟨0, path, rfl, hpath⟩
      · exact ⟨k + 1, path, by rw [Nat.add_right_comm, Nat.add_assoc], hpath⟩
    · rintro ⟨_ | k, path, rfl, hpath⟩
      · exact .inl ⟨path, rfl, hpath⟩
      · exact .inr ⟨k, path, by rw [Nat.add_right_comm, Nat.add_assoc], hpath⟩

end

theorem map_fst_map_under (i : Nat) (os : List (List Nat × α)) :
    (os.map (under i)).map Prod.fst = (os.map Prod.fst).map (i :: ·) := by
  simp [under, Function.comp_def]

theorem pairwise_map_under {os : List (List Nat × α)} (h : (os.map Prod.fst).Pairwise (· < ·))
    (i : Nat) : ((os.map (under i)).map Prod.fst).Pairwise (· < ·) := by
  rw [map_fst_map_under, List.pairwise_map]
  exact h.imp fun hlt => List.cons_lt_cons_iff.2 (.inr ⟨rfl, hlt⟩)

theorem pairwise_zipIdx_places (vs : List α) :
    ((vs.zipIdx.map fun e => ([e.2], e.1)).map Prod.fst).Pairwise (· < ·) := by
  have hnumbers : (vs.zipIdx.map Prod.snd).Pairwise (· < ·) := by
    rw [List.zipIdx_map_snd]
    exact List.pairwise_lt_range'
  rw [List.pairwise_map] at hnumbers
  rw [List.pairwise_map, List.pairwise_map]
  exact hnumbers.imp fun hlt => List.cons_lt_cons_iff.2 (.inl hlt)

/-- The places in a child come before those in later children. -/
theorem lt_of_mem_places {i j : Nat} (hij : i < j) {os : List (List Nat × α)}
    {ps : List (Predicate α)} {a b : List Nat} (ha : a ∈ (os.map (under i)).map Prod.fst)
    (hb : b ∈ (operandsOfAll (locatedFrom j ps)).map Prod.fst) : a < b := by
  obtain ⟨⟨a, v⟩, hv, rfl⟩ := List.mem_map.1 ha
  obtain ⟨⟨b, w⟩, hw, rfl⟩ := List.mem_map.1 hb
  obtain ⟨path, rfl, -⟩ := mem_map_under_iff.1 hv
  obtain ⟨k, path', rfl, -⟩ := mem_operandsOfAll_locatedFrom_iff.1 hw
  exact List.cons_lt_cons_iff.2 (.inl (by omega))

mutual

/-- The operands of a located predicate stand from left to right. -/
theorem pairwise_operands_located (p : Predicate α) :
    (p.located.operands.map Prod.fst).Pairwise (· < ·) := by
  match p with
  | comparison .. | between .. | isIn .. | nullCheck .. =>
    rw [operands_located_of_leaf rfl]
    exact pairwise_zipIdx_places _
  | not child =>
    rw [located, operands_not, operands_map]
    exact pairwise_map_under (pairwise_operands_located child) 0
  | junction joiner first rest =>
    rw [located, operands, List.map_append, operands_map, List.pairwise_append]
    refine ⟨pairwise_map_under (pairwise_operands_located first) 0,
      pairwise_operandsOfAll_locatedFrom 1 rest, ?_⟩
    exact fun a ha b hb => lt_of_mem_places Nat.zero_lt_one ha hb

theorem pairwise_operandsOfAll_locatedFrom (i : Nat) (ps : List (Predicate α)) :
    ((operandsOfAll (locatedFrom i ps)).map Prod.fst).Pairwise (· < ·) := by
  match ps with
  | [] => exact .nil
  | p :: rest =>
    rw [locatedFrom, operandsOfAll, List.map_append, operands_map, List.pairwise_append]
    refine ⟨pairwise_map_under (pairwise_operands_located p) i,
      pairwise_operandsOfAll_locatedFrom (i + 1) rest, ?_⟩
    exact fun a ha b hb => lt_of_mem_places (Nat.lt_succ_self i) ha hb

end

/-! ## Placeholders -/

mutual

/-- The filled text of a predicate is its text, but for its operands, whatever its expressions
are. -/
theorem map_erase_filled (p : Predicate α) : p.filled.map Token.erase = p.sql.toList := by
  match p with
  | comparison .. => simp [filled, sql, placeholder, Token.erase]
  | between .. => simp [filled, sql, placeholder, Token.erase]
  | isIn _ values =>
    have hplaceholders : ((chars ", ").intercalate (values.map fun v => [Token.value v])).map
        Token.erase = (placeholders values).toList := by
      refine map_erase_intercalate ", " ?_
      rw [List.forall₂_map_left_iff, List.forall₂_map_right_iff, List.forall₂_same]
      exact fun _ _ => rfl
    simp only [filled, sql, List.map_append, map_erase_chars, hplaceholders, String.toList_append]
  | nullCheck .. => simp [filled, sql]
  | not child =>
    simp only [filled, sql, List.map_append, map_erase_chars, map_erase_filled child,
      String.toList_append]
  | junction joiner first rest =>
    simp only [filled, sql, List.map_append, map_erase_chars, map_erase_filled first,
      map_erase_joinedFilled joiner rest, String.toList_append]

theorem map_erase_joinedFilled (joiner : Connective) (ps : List (Predicate α)) :
    (joinedFilled joiner ps).map Token.erase = (joinedSql joiner ps).toList := by
  match ps with
  | [] => rfl
  | p :: rest =>
    simp only [joinedFilled, joinedSql, List.map_append, map_erase_chars, map_erase_filled p,
      map_erase_joinedFilled joiner rest, String.toList_append]

end

/-! ## Contributions -/

mutual

/-- Whether an IN has values does not depend on what they are. -/
theorem emptyIns_map (f : α → β) (p : Predicate α) : (p.map f).emptyIns = p.emptyIns := by
  match p with
  | comparison .. | between .. | nullCheck .. => rfl
  | isIn _ [] | isIn _ (_ :: _) => rfl
  | not child => exact emptyIns_map f child
  | junction _ first rest =>
    simp only [map, emptyIns, emptyIns_map f first, emptyInsOfAll_mapAll f rest]

theorem emptyInsOfAll_mapAll (f : α → β) (ps : List (Predicate α)) :
    emptyInsOfAll (mapAll f ps) = emptyInsOfAll ps := by
  match ps with
  | [] => rfl
  | p :: rest =>
    simp only [mapAll, emptyInsOfAll, emptyIns_map f p, emptyInsOfAll_mapAll f rest]

end

theorem emptyIns_located (p : Predicate α) : p.located.emptyIns = p.emptyIns := by
  rw [← emptyIns_map Prod.snd p.located, map_snd_located]

/-- A collector that is given a located predicate learns of each operand where it came from. -/
theorem run_contribute_located {p : Predicate α} {settings : Settings}
    (h : settings.accept p.emptyIns = .ok ()) :
    (p.located.contribute : Run (Collector (List Nat × α)) Unit).run ⟨[], settings⟩ =
      ⟨⟨p.located.operands, settings⟩, settings.warnings p.emptyIns, .ok ()⟩ := by
  have hresult := p.located.result_contribute (⟨[], settings⟩ : Collector (List Nat × α))
  have hevents := p.located.events_contribute (⟨[], settings⟩ : Collector (List Nat × α))
  rw [emptyIns_located] at hresult hevents
  have hok := hresult.trans h
  have hstate := state_contribute_of_ok hok
  refine Outcome.ext (hstate.trans ?_) hevents hok
  rw [Collector.foldl_push]
  rfl

section

variable {σ : Type} [ParameterSink σ α]

/-- The text of a predicate has a placeholder for every operand and for nothing else but what its
expressions bring, from left to right, and each was written by the leaf that has the operand. A
contribution that goes through takes the operands from these same places in this same order, and
leaves them with the sink after what it held before, whichever way its contents are read. -/
theorem placeholders_follow_contribution (p : Predicate α) (sink : σ) :
    let written := values p.located.filled
    p.located.filled.map Token.erase = p.sql.toList ∧
      written.map Prod.snd = p.operands ∧
      (written.map Prod.fst).Pairwise (· < ·) ∧
      (∀ path v, (path, v) ∈ written ↔ p.operandAt? path = some v) ∧
      (((p.contribute : Run σ Unit).run sink).result = .ok () →
        (∀ contents : σ → List α,
          (∀ s v, contents (ParameterSink.push s v) = contents s ++ [v]) →
          contents ((p.contribute : Run σ Unit).run sink).state = contents sink ++ p.operands) ∧
        (p.located.contribute : Run (Collector (List Nat × α)) Unit).run
            ⟨[], ParameterSink.settings sink⟩ =
          ⟨⟨written, ParameterSink.settings sink⟩, ((p.contribute : Run σ Unit).run sink).events,
            .ok ()⟩) ∧
      ((∀ e ∈ p.exprs, Unmarked e) → p.sql.toList.count '?' = p.operands.length) := by
  intro written
  have hwritten : written = p.located.operands := values_filled p.located
  refine ⟨by rw [map_erase_filled, sql_located], by rw [hwritten, map_snd_operands_located],
    by rw [hwritten]; exact pairwise_operands_located p, ?_, ?_, ?_⟩
  · intro path v
    rw [hwritten]
    exact mem_operands_located_iff
  · intro hok
    refine ⟨?_, ?_⟩
    · intro contents hcontents
      rw [state_contribute_of_ok hok, contents_foldl_push hcontents]
    · rw [result_contribute] at hok
      rw [hwritten, events_contribute]
      exact run_contribute_located hok
  · intro hexprs
    rw [(reads_filled p hexprs).count_eq, values_filled]

end

/-- Of `(a = 1 AND not (b in (2, 3)) AND c BETWEEN 4 AND 5)` a sink that holds `0` takes the five
operands, and the second number of the IN stands in the place `[1, 0, 1]`. -/
theorem placeholders_follow_contribution_nested :
    let p : Predicate Value := .junction .and (.comparison .equal "a" (.int 1))
      [.not (.isIn "b" [.int 2, .int 3]), .between "c" (.int 4) (.int 5)]
    let sink : Collector Value := ⟨[.int 0], .default⟩
    ((p.contribute : Run (Collector Value) Unit).run sink).result = .ok () ∧
      ((p.contribute : Run (Collector Value) Unit).run sink).state.values =
        [.int 0, .int 1, .int 2, .int 3, .int 4, .int 5] ∧
      ([1, 0, 1], .int 3) ∈ values p.located.filled ∧
      p.sql.toList.count '?' = 5 := by
  intro p sink
  have hok : ((p.contribute : Run (Collector Value) Unit).run sink).result = .ok () := rfl
  obtain ⟨-, -, -, hmem, htaken, hcount⟩ := placeholders_follow_contribution p sink
  exact ⟨hok, (htaken hok).1 Collector.values (fun _ _ => rfl), (hmem _ _).2 rfl,
    hcount (by decide)⟩

end BoundQuery.Predicate
