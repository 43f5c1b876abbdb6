import BoundQuery.Proofs.Registry.History

/-!
# Leaf operations by name

While the handlers of the leaf operations are in place, asking a registry for a leaf operation by
name is the same as composing the predicate directly, and so it is for every number and every type
of operands: operands that the operation has no reading for are refused before anything is built.
An IN is the one operation with two readings, a single list and one or two operands that are no
lists.

## Main definitions

* `Operation.Composes`: what a leaf operation composes of its operands.
* `Operation.blamed`: the argument at fault where it composes nothing.
* `Registry.HasLeaves`: the handlers of the leaf operations are in place.

## Main statements

* `Registry.hasLeaves_after`: they stay in place while nothing is done under their names.
* `Registry.create_leaf`: a registry that has them builds what the operation composes, and nothing
  else.
-/

namespace BoundQuery

/-- A value that counts as a list of operands: it can be gone through, and it is no text, no bytes
and no mapping. -/
def Value.IsOperandList (v : Value) : Prop :=
  v.items?.isSome ∧ v.text? = none ∧ (∀ bs, v ≠ .bytes bs) ∧ ∀ entries, v ≠ .mapping entries

theorem Value.isOperandList_iff (v : Value) : v.IsOperandList ↔ v.operandList?.isSome := by
  cases v <;> simp [IsOperandList, operandList?, items?, text?]

namespace Operation

/-- What a leaf operation composes of its operands. -/
inductive Composes (expr : Value) :
    Operation → List Value → Except Failure (Predicate Value) → Prop where
  | eq (v : Value) : Composes expr .eq [v] (Compose.compare .equal expr v)
  | ne (v : Value) : Composes expr .ne [v] (Compose.compare .notEqual expr v)
  | gt (v : Value) : Composes expr .gt [v] (Compose.compare .greater expr v)
  | gte (v : Value) : Composes expr .gte [v] (Compose.compare .atLeast expr v)
  | lt (v : Value) : Composes expr .lt [v] (Compose.compare .less expr v)
  | lte (v : Value) : Composes expr .lte [v] (Compose.compare .atMost expr v)
  | like (v : Value) : Composes expr .like [v] (Compose.compare .like expr v)
  | between {start stop : Value} (hstart : start ≠ .null) (hstop : stop ≠ .null) :
    Composes expr .between [start, stop] (Compose.between expr start stop)
  | isNull : Composes expr .isNull [] (Compose.isNull false expr)
  | isNotNull : Composes expr .isNotNull [] (Compose.isNull true expr)
  | isInList {v : Value} (h : v.IsOperandList) : Composes expr .isIn [v] (Compose.isIn expr v)
  | isInScalars {vs : List Value} (hlength : vs.length = 1 ∨ vs.length = 2)
    (h : ∀ v ∈ vs, ¬ v.IsOperandList) : Composes expr .isIn vs (Compose.isIn expr (.tuple vs))

/-- The argument at fault where a leaf operation composes nothing of its operands. -/
def blamed : Operation → List Value → String
  | between, [.null, _] => "start"
  | between, [_, .null] => "end"
  | _, _ => "values"

variable {op : Operation} {expr : Value} {operands : List Value}
  {composed : Except Failure (Predicate Value)}

/-- The handler of an operation composes what the operation does. -/
theorem Composes.handler_eq (h : op.Composes expr operands composed) :
    op.handler expr operands = composed := by
  cases h with
  | eq | ne | gt | gte | lt | lte | like | isNull | isNotNull | between => rfl
  | isInList h =>
    rw [Value.isOperandList_iff] at h
    simp [Operation.handler, Operation.comparison?, Handler.isIn, h]
  | isInScalars hlength h =>
    simp only [Value.isOperandList_iff] at h
    rcases hlength with hlength | hlength
    · obtain ⟨v, rfl⟩ := List.length_eq_one_iff.1 hlength
      simp_all [Operation.handler, Operation.comparison?, Handler.isIn]
    · obtain ⟨a, b, rfl⟩ := List.length_eq_two.1 hlength
      simp_all [Operation.handler, Operation.comparison?, Handler.isIn]

theorem exprOf_of_text? {s : String} (h : expr.text? = some s) : Compose.exprOf expr = .ok s := by
  cases expr with
  | text | operation | connective =>
    cases h
    rfl
  | _ => cases h

/-- Of an expression that counts as text, what is composed is a predicate. -/
theorem Composes.exists_ok (h : op.Composes expr operands composed) {s : String}
    (hexpr : expr.text? = some s) : ∃ p, composed = .ok p := by
  have hs := exprOf_of_text? hexpr
  cases h with
  | eq | ne | gt | gte | lt | lte | like | isNull | isNotNull =>
    simp [Compose.compare, Compose.isNull, hs]
  | between hstart hstop => simp [Compose.between, hs, hstart, hstop]
  | isInList h =>
    obtain ⟨items, hitems⟩ := Option.isSome_iff_exists.1 ((Value.isOperandList_iff _).1 h)
    simp [Compose.isIn, hs, hitems]
  | isInScalars => simp [Compose.isIn, hs, Value.operandList?, Value.items?]

/-- A comparison composes something of one operand. -/
theorem composes_of_comparison? {comparison : Comparison}
    (h : op.comparison? = some comparison) (v : Value) :
    op.Composes expr [v] (Compose.compare comparison expr v) := by
  cases op <;> cases h <;> constructor

theorem expect_of_length_ne {n : Nat} (h : operands.length ≠ n) :
    op.expect n operands = .error (.operandCount op n operands.length) := by
  rw [expect, if_neg (by simpa using h)]

/-- A wrong number of operands is refused before anything is composed. -/
theorem exists_error_of_length_ne {n : Nat} (h : operands.length ≠ n)
    (build : Unit → Except Failure (Predicate Value)) :
    ∃ failure, (op.expect n operands >>= build) = .error failure ∧ failure.family = .argument ∧
      failure.argument? = some "values" :=
  ⟨_, by rw [expect_of_length_ne h]; rfl, rfl, rfl⟩

theorem exists_error_between (h : ∀ composed, ¬ Composes expr .between operands composed) :
    ∃ failure, handler .between expr operands = .error failure ∧ failure.family = .argument ∧
      failure.argument? = some (blamed .between operands) := by
  match operands with
  | [] | [_] | _ :: _ :: _ :: _ =>
    exact ⟨.operandCount .between 2 _, rfl, rfl, by simp [blamed, Failure.argument?]⟩
  | [start, stop] =>
    have hhandler : handler .between expr [start, stop] = Compose.between expr start stop := rfl
    by_cases hstart : start = .null
    · subst hstart
      exact ⟨.absentBound "start", rfl, rfl, rfl⟩
    · by_cases hstop : stop = .null
      · subst hstop
        refine ⟨.absentBound "end", ?_, rfl, ?_⟩
        · simp [hhandler, Compose.between, Value.isNull]
        · simp [blamed, Failure.argument?]
      · exact absurd (.between hstart hstop) (h _)

theorem exists_error_isIn (h : ∀ composed, ¬ Composes expr .isIn operands composed) :
    ∃ failure, handler .isIn expr operands = .error failure ∧ failure.family = .argument ∧
      failure.argument? = some "values" := by
  refine ⟨.inOperands operands.length, ?_, rfl, rfl⟩
  match operands with
  | [] | _ :: _ :: _ :: _ => rfl
  | [v] =>
    by_cases hv : v.IsOperandList
    · exact absurd (.isInList hv) (h _)
    · exact absurd (.isInScalars (.inl rfl) (by simpa using hv)) (h _)
  | [a, b] =>
    by_cases hab : a.IsOperandList ∨ b.IsOperandList
    · rw [Value.isOperandList_iff, Value.isOperandList_iff] at hab
      simp [handler, comparison?, Handler.isIn, hab]
    · exact absurd (.isInScalars (.inr rfl) (by simpa [not_or] using hab)) (h _)

/-- Where the operation composes nothing, its handler fails and names the argument at fault. -/
theorem exists_error_of_not_composes (h : ∀ composed, ¬ op.Composes expr operands composed) :
    ∃ failure, op.handler expr operands = .error failure ∧ failure.family = .argument ∧
      failure.argument? = some (op.blamed operands) := by
  rcases hop : op.comparison? with - | comparison
  · cases op with
    | between => exact exists_error_between h
    | isIn => exact exists_error_isIn h
    | isNull =>
      refine exists_error_of_length_ne (fun hlength => ?_) _
      exact h _ (List.length_eq_zero_iff.1 hlength ▸ Composes.isNull)
    | isNotNull =>
      refine exists_error_of_length_ne (fun hlength => ?_) _
      exact h _ (List.length_eq_zero_iff.1 hlength ▸ Composes.isNotNull)
    | eq | ne | gt | gte | lt | lte | like => cases hop
  · have hblamed : op.blamed operands = "values" := by cases op <;> first | rfl | cases hop
    have hlength : operands.length ≠ 1 := by
      intro hlength
      obtain ⟨v, rfl⟩ := List.length_eq_one_iff.1 hlength
      exact h _ (composes_of_comparison? hop v)
    rw [hblamed]
    simp only [handler, hop]
    exact exists_error_of_length_ne hlength _

end Operation

namespace Registry

/-- The handlers of the leaf operations are in place. -/
def HasLeaves (registry : Registry) : Prop :=
  ∀ op : Operation, registry.lookup op.name = some op.handler

theorem registered_leafUpdates (op : Operation) :
    Registered leafUpdates op.name (some op.handler) := by
  rw [← handlerIn_eq_some_iff]
  cases op <;> rfl

/-- The handlers of the leaf operations stay in place while nothing is done under their names. -/
theorem hasLeaves_after {actions : List Action}
    (h : ∀ a ∈ actions, ∀ name, a.updates? = some name →
      ∀ op : Operation, key name ≠ .ok op.name) :
    (builtin.after actions).HasLeaves := by
  intro op
  rw [(follows_record actions).lookup_eq, handlerIn_eq_some_iff, record,
    registered_recordFrom fun a ha name hname => h a ha name hname op]
  exact registered_leafUpdates op

theorem exists_literal_of_text? {v : Value} {s : String} (h : v.text? = some s)
    (resolve : Resolver) : ∃ shown, v.literal resolve = .ok shown := by
  cases v with
  | text | operation | connective => exact ⟨_, rfl⟩
  | _ => cases h

theorem key_of_names_leaf {op : Operation} {name : Value}
    (h : name = .operation op ∨ ∃ t, name.text? = some t ∧ uppercase t = op.name) :
    key name = .ok op.name := by
  rcases h with rfl | ⟨t, ht, hop⟩
  · rfl
  · rw [key_of_text? ht, hop]

/-- A registry that has the handlers of the leaf operations builds, under any name of a leaf
operation, what the operation composes, and that is a predicate. Of operands that the operation
composes nothing of it builds nothing: it says which argument is at fault. Either way the request is
logged and the registry stays as it was. -/
theorem create_leaf {registry : Registry} (hleaves : registry.HasLeaves) {op : Operation}
    {name expr : Value} {s : String}
    (hname : name = .operation op ∨ ∃ t, name.text? = some t ∧ uppercase t = op.name)
    (hexpr : expr.text? = some s) (resolve : Resolver) (operands : List Value) :
    ∃ shown result, (create resolve name expr operands).run registry =
        ⟨registry, [.building op.name shown operands.length], result⟩ ∧
      (∀ composed, op.Composes expr operands composed →
        result = composed ∧ ∃ p, result = .ok p) ∧
      ((∀ composed, ¬ op.Composes expr operands composed) →
        ∃ failure, result = .error failure ∧ failure.family = .argument ∧
          failure.argument? = some (op.blamed operands)) := by
  obtain ⟨shown, hshown⟩ := exists_literal_of_text? hexpr resolve
  refine ⟨shown, op.handler expr operands, ?_, ?_, Operation.exists_error_of_not_composes⟩
  · rw [run_create_of_lookup (key_of_names_leaf hname) (hleaves op), announcement, hshown]
    rfl
  · intro composed hcomposed
    rw [hcomposed.handler_eq]
    exact ⟨rfl, hcomposed.exists_ok hexpr⟩

/-- With one operation more, `in` still takes two texts for two operands, and a list beside a text
for a mistake. -/
theorem create_leaf_isIn :
    let registry := builtin.after [.register (.text "starts_with") (some Handler.startsWith)]
    let run operands :=
      (create Resolver.empty (.text "in") (.text "name") operands).run registry
    registry.HasLeaves ∧ uppercase "in" = Operation.isIn.name ∧
      (run [.text "Larry", .text "Moe"]).result =
        .ok (.isIn "name" [.text "Larry", .text "Moe"]) ∧
      ∃ failure, (run [.list [.int 1], .text "Moe"]).result = .error failure ∧
        failure.argument? = some "values" := by
  intro registry run
  have hleaves : registry.HasLeaves := by
    refine hasLeaves_after fun a ha name hname op => ?_
    rw [List.mem_singleton.1 ha] at hname
    obtain rfl := Option.some.inj hname
    cases op <;> decide +kernel
  have hin : uppercase "in" = Operation.isIn.name := by decide +kernel
  have hname : Value.text "in" = .operation .isIn ∨
      ∃ t, (Value.text "in").text? = some t ∧ uppercase t = Operation.isIn.name :=
    .inr ⟨"in", rfl, hin⟩
  have hexpr : (Value.text "name").text? = some "name" := rfl
  refine ⟨hleaves, hin, ?_, ?_⟩
  · obtain ⟨shown, result, hrun, hcomposed, -⟩ := create_leaf hleaves hname hexpr Resolver.empty
      [.text "Larry", .text "Moe"]
    have htexts : ∀ v ∈ [Value.text "Larry", Value.text "Moe"], ¬ v.IsOperandList := by
      simp [Value.isOperandList_iff, Value.operandList?]
    have hresult := (hcomposed _ (.isInScalars (.inr rfl) htexts)).1
    exact (congrArg Outcome.result hrun).trans hresult
  · obtain ⟨shown, result, hrun, -, hfailed⟩ := create_leaf hleaves hname hexpr Resolver.empty
      [.list [.int 1], .text "Moe"]
    have hnone : ∀ composed,
        ¬ Operation.Composes (.text "name") .isIn [.list [.int 1], .text "Moe"] composed := by
      rintro composed (_ | _ | _)
      next h => exact h (.list [.int 1]) (by simp) ((Value.isOperandList_iff _).2 rfl)
    obtain ⟨failure, hresult, -, hargument⟩ := hfailed hnone
    exact ⟨failure, (congrArg Outcome.result hrun).trans hresult, hargument⟩

end Registry

end BoundQuery
