import BoundQuery.Predicate.Basic
import BoundQuery.Value.Equality

/-!
# The shape of a predicate

A predicate is its shape and its operands: two predicates are equal exactly when they have the same
shape and equal operands, one by one. The connective of a group with a single condition stands
nowhere in its text. Leveling gives every such group the same connective; it changes neither the
text nor the operands.

## Main definitions

* `Predicate.map`: a predicate with other operands.
* `Predicate.shape`: a predicate without its operands.
* `Predicate.leveled`: a predicate, where the connective of a single condition is disregarded.
* `Predicate.depth`: how many predicates stand one inside another.

## Main statements

* `Predicate.same_iff`: equal predicates have the same shape and equal operands.
* `Predicate.sql_leveled`, `Predicate.operands_leveled`: leveling keeps texts and operands.
-/

namespace BoundQuery

namespace Predicate

variable {α β : Type}

mutual

/-- A predicate with other operands in place of its own. -/
def map (f : α → β) : Predicate α → Predicate β
  | comparison op expr value => comparison op expr (f value)
  | between expr start stop => between expr (f start) (f stop)
  | isIn expr values => isIn expr (values.map f)
  | nullCheck expr negated => nullCheck expr negated
  | not child => not (map f child)
  | junction joiner first rest => junction joiner (map f first) (mapAll f rest)

def mapAll (f : α → β) : List (Predicate α) → List (Predicate β)
  | [] => []
  | p :: rest => map f p :: mapAll f rest

end

def shape (p : Predicate α) : Predicate Unit := p.map fun _ => ()

mutual

/-- A predicate, where groups with a single condition all have the same connective. -/
def leveled : Predicate α → Predicate α
  | not child => not (leveled child)
  | junction joiner first rest =>
    junction (if rest.isEmpty then .and else joiner) (leveled first) (leveledAll rest)
  | p => p

def leveledAll : List (Predicate α) → List (Predicate α)
  | [] => []
  | p :: rest => leveled p :: leveledAll rest

end

mutual

/-- How many predicates stand one inside another, the outermost included. -/
def depth : Predicate α → Nat
  | not child => depth child + 1
  | junction _ first rest => max (depth first) (depthOfAll rest) + 1
  | _ => 1

def depthOfAll : List (Predicate α) → Nat
  | [] => 0
  | p :: rest => max (depth p) (depthOfAll rest)

end

theorem one_le_depth (p : Predicate α) : 1 ≤ p.depth := by
  cases p <;> simp [depth]

/-! ## Texts and operands -/

theorem placeholders_map (f : α → β) (values : List α) :
    placeholders (values.map f) = placeholders values := by
  simp [placeholders, Function.comp_def]

mutual

/-- The text of a predicate does not depend on its operands. -/
@[simp] theorem sql_map (f : α → β) (p : Predicate α) : (p.map f).sql = p.sql := by
  match p with
  | comparison _ _ _ => rfl
  | between _ _ _ => rfl
  | isIn _ values => simp only [map, sql, placeholders_map]
  | nullCheck _ _ => rfl
  | not child => simp only [map, sql, sql_map f child]
  | junction joiner first rest =>
    simp only [map, sql, sql_map f first, joinedSql_mapAll f joiner rest]

theorem joinedSql_mapAll (f : α → β) (joiner : Connective) (ps : List (Predicate α)) :
    joinedSql joiner (mapAll f ps) = joinedSql joiner ps := by
  match ps with
  | [] => rfl
  | p :: rest => simp only [mapAll, joinedSql, sql_map f p, joinedSql_mapAll f joiner rest]

end

mutual

theorem depth_map (f : α → β) (p : Predicate α) : (p.map f).depth = p.depth := by
  match p with
  | comparison _ _ _ | between _ _ _ | isIn _ _ | nullCheck _ _ => rfl
  | not child => simp only [map, depth, depth_map f child]
  | junction joiner first rest =>
    simp only [map, depth, depth_map f first, depthOfAll_mapAll f rest]

theorem depthOfAll_mapAll (f : α → β) (ps : List (Predicate α)) :
    depthOfAll (mapAll f ps) = depthOfAll ps := by
  match ps with
  | [] => rfl
  | p :: rest => simp only [mapAll, depthOfAll, depth_map f p, depthOfAll_mapAll f rest]

end

mutual

@[simp] theorem operands_map (f : α → β) (p : Predicate α) :
    (p.map f).operands = p.operands.map f := by
  match p with
  | comparison _ _ _ => rfl
  | between _ _ _ => rfl
  | isIn _ values => rfl
  | nullCheck _ _ => rfl
  | not child => simp only [map, operands, operands_map f child]
  | junction joiner first rest =>
    simp only [map, operands, operands_map f first, operandsOfAll_mapAll f rest, List.map_append]

theorem operandsOfAll_mapAll (f : α → β) (ps : List (Predicate α)) :
    operandsOfAll (mapAll f ps) = (operandsOfAll ps).map f := by
  match ps with
  | [] => rfl
  | p :: rest =>
    simp only [mapAll, operandsOfAll, operands_map f p, operandsOfAll_mapAll f rest,
      List.map_append]

end

mutual

/-- Operands that come back keep the predicate as it is. -/
theorem map_map_eq_self {f : α → β} {g : β → α} {p : Predicate α}
    (h : ∀ v ∈ p.operands, g (f v) = v) : (p.map f).map g = p := by
  match p with
  | comparison _ _ v => simp only [map, h v (List.mem_singleton_self v)]
  | between _ start stop =>
    have hstart : g (f start) = start := h start List.mem_cons_self
    have hstop : g (f stop) = stop := h stop (List.mem_cons_of_mem _ List.mem_cons_self)
    simp only [map, hstart, hstop]
  | isIn _ values =>
    have hvalues : (values.map f).map g = values := by
      rw [List.map_map]
      exact (List.map_congr_left h).trans (List.map_id' values)
    simp only [map, hvalues]
  | nullCheck _ _ => rfl
  | not child => simp only [map, map_map_eq_self (p := child) h]
  | junction joiner first rest =>
    have hfirst : ∀ v ∈ first.operands, g (f v) = v := fun v hv => h v (List.mem_append_left _ hv)
    have hrest : ∀ v ∈ operandsOfAll rest, g (f v) = v :=
      fun v hv => h v (List.mem_append_right _ hv)
    simp only [map, map_map_eq_self hfirst, mapAll_mapAll_eq_self hrest]

theorem mapAll_mapAll_eq_self {f : α → β} {g : β → α} {ps : List (Predicate α)}
    (h : ∀ v ∈ operandsOfAll ps, g (f v) = v) : mapAll g (mapAll f ps) = ps := by
  match ps with
  | [] => rfl
  | p :: rest =>
    have hp : ∀ v ∈ p.operands, g (f v) = v := fun v hv => h v (List.mem_append_left _ hv)
    have hrest : ∀ v ∈ operandsOfAll rest, g (f v) = v :=
      fun v hv => h v (List.mem_append_right _ hv)
    simp only [mapAll, map_map_eq_self hp, mapAll_mapAll_eq_self hrest]

end

/-- Predicates of the same shape have the same number of operands. -/
theorem length_operands_eq {p : Predicate α} {q : Predicate β} (h : p.shape = q.shape) :
    p.operands.length = q.operands.length := by
  have hlength := congrArg (fun r => r.operands.length) h
  simpa [shape] using hlength

mutual

/-- The connective of a single condition is not written. -/
@[simp] theorem sql_leveled (p : Predicate α) : p.leveled.sql = p.sql := by
  match p with
  | comparison _ _ _ => rfl
  | between _ _ _ => rfl
  | isIn _ _ => rfl
  | nullCheck _ _ => rfl
  | not child => simp only [leveled, sql, sql_leveled child]
  | junction joiner first [] => simp only [leveled, leveledAll, sql, joinedSql, sql_leveled first]
  | junction joiner first (p :: rest) =>
    have hrest := joinedSql_leveledAll joiner (p :: rest)
    simp only [leveled, sql, sql_leveled first, List.isEmpty_cons, Bool.false_eq_true, if_false,
      hrest]

theorem joinedSql_leveledAll (joiner : Connective) (ps : List (Predicate α)) :
    joinedSql joiner (leveledAll ps) = joinedSql joiner ps := by
  match ps with
  | [] => rfl
  | p :: rest => simp only [leveledAll, joinedSql, sql_leveled p, joinedSql_leveledAll joiner rest]

end

mutual

@[simp] theorem operands_leveled (p : Predicate α) : p.leveled.operands = p.operands := by
  match p with
  | comparison _ _ _ => rfl
  | between _ _ _ => rfl
  | isIn _ _ => rfl
  | nullCheck _ _ => rfl
  | not child => simp only [leveled, operands, operands_leveled child]
  | junction joiner first rest =>
    simp only [leveled, operands, operands_leveled first, operandsOfAll_leveledAll rest]

theorem operandsOfAll_leveledAll (ps : List (Predicate α)) :
    operandsOfAll (leveledAll ps) = operandsOfAll ps := by
  match ps with
  | [] => rfl
  | p :: rest =>
    simp only [leveledAll, operandsOfAll, operands_leveled p, operandsOfAll_leveledAll rest]

end

end Predicate

/-! ## Equality -/

namespace Value

theorem length_eq_of_sameAll {xs ys : List Value} (h : sameAll xs ys = true) :
    xs.length = ys.length := by
  induction xs generalizing ys with
  | nil =>
    cases ys with
    | nil => rfl
    | cons y ys => simp [sameAll] at h
  | cons x xs ih =>
    cases ys with
    | nil => simp [sameAll] at h
    | cons y ys =>
      simp only [sameAll, Bool.and_eq_true] at h
      rw [List.length_cons, List.length_cons, ih h.2]

theorem sameAll_append {xs ys xs' ys' : List Value} (h : xs.length = ys.length) :
    sameAll (xs ++ xs') (ys ++ ys') = (sameAll xs ys && sameAll xs' ys') := by
  induction xs generalizing ys with
  | nil =>
    obtain rfl := List.length_eq_zero_iff.1 h.symm
    simp [sameAll]
  | cons x xs ih =>
    cases ys with
    | nil => cases h
    | cons y ys =>
      have hlength : xs.length = ys.length := Nat.succ.inj h
      simp only [List.cons_append, sameAll, ih hlength, Bool.and_assoc]

end Value

namespace Predicate

/-- Where two predicates have the same shape, their operands are compared apart from those that
follow. -/
theorem and_sameAll_append_iff {p q : Predicate Value} {P : Prop} {xs ys : List Value} :
    (p.shape = q.shape ∧ Value.sameAll p.operands q.operands = true) ∧
        (P ∧ Value.sameAll xs ys = true) ↔
      (p.shape = q.shape ∧ P) ∧
        Value.sameAll (p.operands ++ xs) (q.operands ++ ys) = true := by
  constructor
  · rintro ⟨⟨hshape, hp⟩, hP, hs⟩
    rw [Value.sameAll_append (length_operands_eq hshape), hp, hs]
    exact ⟨⟨hshape, hP⟩, rfl⟩
  · rintro ⟨⟨hshape, hP⟩, h⟩
    rw [Value.sameAll_append (length_operands_eq hshape), Bool.and_eq_true] at h
    exact ⟨⟨hshape, h.1⟩, hP, h.2⟩

private theorem map_const_eq_iff {values values' : List Value} :
    (values.map fun _ => ()) = (values'.map fun _ => ()) ↔ values.length = values'.length := by
  constructor
  · intro h
    simpa using congrArg List.length h
  · intro h
    rw [List.map_const', List.map_const', h]

mutual

theorem samePredicate_iff (p q : Predicate Value) :
    Value.samePredicate p q = true ↔
      p.shape = q.shape ∧ Value.sameAll p.operands q.operands = true := by
  match p with
  | comparison _ _ _ =>
    cases q <;> simp [Value.samePredicate, shape, map, operands, Value.sameAll]
  | between _ _ _ =>
    cases q <;> simp [Value.samePredicate, shape, map, operands, Value.sameAll, and_assoc]
  | isIn _ values =>
    cases q with
    | isIn _ values' =>
      simp only [Value.samePredicate, shape, map, operands, Bool.and_eq_true, beq_iff_eq,
        isIn.injEq, map_const_eq_iff, and_assoc]
      exact and_congr_right fun _ =>
        ⟨fun h => ⟨Value.length_eq_of_sameAll h, h⟩, fun h => h.2⟩
    | _ => simp [Value.samePredicate, shape, map]
  | nullCheck _ _ =>
    cases q <;> simp [Value.samePredicate, shape, map, operands, Value.sameAll]
  | not child =>
    cases q with
    | not child' => simpa [Value.samePredicate, shape, map] using samePredicate_iff child child'
    | _ => simp [Value.samePredicate, shape, map]
  | junction joiner first rest =>
    cases q with
    | junction joiner' first' rest' =>
      have hfirst := samePredicate_iff first first'
      have hrest := samePredicates_iff rest rest'
      simp only [Value.samePredicate, Bool.and_eq_true, beq_iff_eq, hfirst, hrest, operands]
      rw [and_assoc, and_sameAll_append_iff, ← and_assoc]
      simp only [shape, map, junction.injEq]
    | _ => simp [Value.samePredicate, shape, map]

theorem samePredicates_iff (ps qs : List (Predicate Value)) :
    Value.samePredicates ps qs = true ↔
      mapAll (fun _ => ()) ps = mapAll (fun _ => ()) qs ∧
        Value.sameAll (operandsOfAll ps) (operandsOfAll qs) = true := by
  match ps, qs with
  | [], [] => simp [Value.samePredicates, mapAll, operandsOfAll, Value.sameAll]
  | [], _ :: _ => simp [Value.samePredicates, mapAll]
  | _ :: _, [] => simp [Value.samePredicates, mapAll]
  | p :: ps, q :: qs =>
    have hp := samePredicate_iff p q
    have hps := samePredicates_iff ps qs
    simp only [Value.samePredicates, Bool.and_eq_true, hp, hps, operandsOfAll]
    rw [and_sameAll_append_iff]
    simp only [shape, mapAll, List.cons.injEq]

end

/-- Equal predicates have the same shape and equal operands. -/
theorem same_iff {p q : Predicate Value} :
    p.same q = true ↔ p.shape = q.shape ∧ Value.sameAll p.operands q.operands = true :=
  samePredicate_iff p q

end Predicate

end BoundQuery
