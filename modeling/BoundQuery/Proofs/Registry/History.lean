import BoundQuery.Proofs.Text.Uppercase
import BoundQuery.Registry
import Mathlib.Data.List.Induction
import Mathlib.Data.String.Basic

/-!
# A registry is its history

What a registry finds under a name is decided by the updates that it has seen: the latest one under
the upper case form of the name counts, and the others are as if they had not been. A registry
keeps no more than one entry for each name, and so its names, in code point order, are the ones that
were registered and not removed since. An update under a name that is no text does not come about.

## Main definitions

* `Registry.Action`, `Registry.perform`: what is done with a registry, and its effect.
* `Registry.Registered`: what the updates of a history leave under a key.
* `Registry.record`: the updates that actions make, beginning with the leaf operations.
* `Registry.Follows`: a registry with the entries that a history leaves.

## Main statements

* `Registry.follows_record`: after any actions a registry follows their record.
* `Registry.answers_from_record`: so every answer can be told from the record alone.
-/

namespace BoundQuery.Registry

open Run

/-! ## Actions -/

/-- What is done with a registry. -/
inductive Action where
  | register (name : Value) (handler : Option Handler)
  | aliased (name source : Value)
  | unregister (name : Value)
  | get (name : Value)
  | list
  | create (resolve : Resolver) (name expr : Value) (operands : List Value)

/-- What an action that succeeds gives back. -/
inductive Answer where
  | done
  | handler (found : Option Handler)
  | names (names : List String)
  | predicate (p : Predicate Value)

/-- The effect of an action. -/
def perform : Action → Run Registry Answer
  | .register name handler => do
    register name handler
    return .done
  | .aliased name source => do
    let found ← get? source
    register name found
    return .done
  | .unregister name => do
    unregister name
    return .done
  | .get name => do
    let found ← get? name
    return .handler found
  | .list => do
    let registry ← Run.get
    return .names registry.names
  | .create resolve name expr operands => do
    let p ← create resolve name expr operands
    return .predicate p

/-- The registry after some actions, whether they failed or not. -/
def after (registry : Registry) (actions : List Action) : Registry :=
  actions.foldl (fun registry action => ((perform action).run registry).state) registry

/-- The names that an action is given. -/
def Action.names : Action → List Value
  | register name _ | unregister name | get name | create _ name _ _ => [name]
  | aliased name source => [source, name]
  | list => []

/-- The name whose key an action updates, if there is one. -/
def Action.updates? : Action → Option Value
  | register name _ | aliased name _ | unregister name => some name
  | get _ | list | create .. => none

/-! ## Histories -/

/-- An update of a key: what is registered under it, or none where it is removed. -/
abbrev Update : Type := String × Option (Option Handler)

/-- The latest update of a key registered something, and what. -/
def Registered (history : List Update) (key : String) (handler : Option Handler) : Prop :=
  ∃ before after, history = before ++ (key, some handler) :: after ∧ ∀ e ∈ after, e.1 ≠ key

/-- The handler that the latest update of a key registered. -/
def handlerIn (history : List Update) (key : String) : Option Handler :=
  history.foldl (fun found e => if e.1 = key then e.2.join else found) none

/-- The updates that are made under a name. -/
def updatesUnder (name : Value) (updates : String → List Update) : List Update :=
  match key name with
  | .ok key => updates key
  | .error _ => []

/-- The updates that an action makes after others. -/
def updates (history : List Update) : Action → List Update
  | .register name handler => updatesUnder name fun key => [(key, some handler)]
  | .aliased name source =>
    updatesUnder source fun found =>
      updatesUnder name fun key => [(key, some (handlerIn history found))]
  | .unregister name => updatesUnder name fun key => [(key, none)]
  | .get _ | .list | .create .. => []

def leafUpdates : List Update := Operation.all.map fun op => (op.name, some (some op.handler))

/-- The updates after those of a history that actions make. -/
def recordFrom (history : List Update) (actions : List Action) : List Update :=
  actions.foldl (fun history action => history ++ updates history action) history

/-- The updates that actions make, beginning with the leaf operations. -/
def record (actions : List Action) : List Update := recordFrom leafUpdates actions

theorem registered_append {history : List Update} {e : Update} {key : String}
    {handler : Option Handler} :
    Registered (history ++ [e]) key handler ↔
      if e.1 = key then e.2 = some handler else Registered history key handler := by
  constructor
  · rintro ⟨before, after, hsplit, hafter⟩
    rcases List.eq_nil_or_concat' after with rfl | ⟨after, last, rfl⟩
    · obtain ⟨-, rfl⟩ := List.append_singleton_inj.1 hsplit
      simp
    · rw [← List.cons_append, ← List.append_assoc] at hsplit
      obtain ⟨rfl, rfl⟩ := List.append_singleton_inj.1 hsplit
      rw [if_neg (hafter e (by simp))]
      exact ⟨before, after, rfl, fun u hu => hafter u (List.mem_append_left _ hu)⟩
  · split
    · next hkey =>
      intro hhandler
      exact ⟨history, [], by rw [← hkey, ← hhandler], by simp⟩
    · next hkey =>
      rintro ⟨before, after, rfl, hafter⟩
      refine ⟨before, after ++ [e], by simp, ?_⟩
      intro u hu
      rcases List.mem_append.1 hu with hu | hu
      · exact hafter u hu
      · rw [List.mem_singleton.1 hu]
        exact hkey

theorem handlerIn_append (history : List Update) (e : Update) (key : String) :
    handlerIn (history ++ [e]) key = if e.1 = key then e.2.join else handlerIn history key := by
  simp [handlerIn]

/-- Replaying a history finds the handler that it leaves. -/
theorem handlerIn_eq_some_iff {history : List Update} {key : String} {handler : Handler} :
    handlerIn history key = some handler ↔ Registered history key (some handler) := by
  induction history using List.reverseRecOn with
  | nil => simp [handlerIn, Registered]
  | append_singleton history e ih =>
    rw [handlerIn_append, registered_append]
    split
    · rw [Option.join_eq_some_iff]
    · exact ih

/-! ## Keys -/

theorem key_of_text? {name : Value} {s : String} (h : name.text? = some s) :
    key name = .ok (uppercase s) := by
  cases name with
  | operation op =>
    cases h
    cases op <;> decide +kernel
  | _ => simp [key, h]

theorem key_of_text?_eq_none {name : Value} (h : name.text? = none) :
    key name = .error (.operationKind name.kindName) := by
  cases name with
  | operation op => cases h
  | _ => simp [key, h]

/-- A key is in upper case. -/
theorem uppercase_of_key {name : Value} {k : String} (h : key name = .ok k) : uppercase k = k := by
  cases ht : name.text? with
  | none =>
    rw [key_of_text?_eq_none ht] at h
    cases h
  | some s =>
    rw [key_of_text? ht] at h
    cases h
    exact uppercase_uppercase s

/-! ## Following a history -/

/-- A registry with the entries that a history leaves, each key once. -/
structure Follows (registry : Registry) (history : List Update) : Prop where
  nodup : (registry.entries.map Prod.fst).Nodup
  lookup : ∀ key handler,
    registry.entries.lookup key = some handler ↔ Registered history key handler

theorem lookup_filter_self {β : Type} (entries : List (String × β)) (key : String) :
    (entries.filter fun e => e.1 != key).lookup key = none := by
  rw [List.lookup_eq_none_iff]
  intro e he
  rw [bne_comm]
  exact (List.mem_filter.1 he).2

theorem nodup_filter {β : Type} {entries : List (String × β)}
    (h : (entries.map Prod.fst).Nodup) (keep : String × β → Bool) :
    ((entries.filter keep).map Prod.fst).Nodup :=
  h.sublist (List.filter_sublist.map Prod.fst)

namespace Follows

variable {registry : Registry} {history : List Update}

/-- Registering under a key is an update that registers. -/
theorem insert (h : Follows registry history) (key : String) (handler : Option Handler) :
    Follows (registry.insert key handler) (history ++ [(key, some handler)]) where
  nodup := by
    refine List.nodup_cons.2 ⟨?_, nodup_filter h.nodup _⟩
    rw [List.mem_map]
    rintro ⟨e, he, hkey⟩
    exact bne_iff_ne.1 (List.mem_filter.1 he).2 hkey
  lookup other found := by
    rw [registered_append, Registry.insert, List.lookup_cons]
    by_cases hkey : key = other
    · simp [hkey]
    · rw [beq_false_of_ne (Ne.symm hkey), if_neg hkey, lookup_filter_ne _ (Ne.symm hkey)]
      exact h.lookup other found

/-- Removing a key is an update that removes. -/
theorem erase (h : Follows registry history) (key : String) :
    Follows (registry.erase key) (history ++ [(key, none)]) where
  nodup := nodup_filter h.nodup _
  lookup other found := by
    rw [registered_append, Registry.erase]
    by_cases hkey : key = other
    · subst hkey
      simp [lookup_filter_self]
    · rw [if_neg hkey, lookup_filter_ne _ (Ne.symm hkey)]
      exact h.lookup other found

/-- A registry finds what replaying its history finds. -/
theorem lookup_eq (h : Follows registry history) (key : String) :
    registry.lookup key = handlerIn history key := by
  refine Option.ext fun handler => ?_
  rw [handlerIn_eq_some_iff, ← h.lookup, Registry.lookup, Option.join_eq_some_iff]

/-- The names are those that a history leaves registered. -/
theorem mem_names (h : Follows registry history) (key : String) :
    key ∈ registry.names ↔ ∃ handler, Registered history key handler := by
  simp only [← h.lookup]
  rw [names, List.mem_mergeSort, ← Option.isSome_iff_exists, ← not_iff_not, Bool.not_eq_true,
    Option.isSome_eq_false_iff, Option.isNone_iff_eq_none, List.lookup_eq_none_iff]
  simp only [List.mem_map, not_exists, not_and, bne_iff_ne]
  exact ⟨fun hne e he heq => hne e he heq.symm, fun hne e he heq => hne e he heq.symm⟩

/-- The names stand in code point order, each once. -/
theorem pairwise_names (h : Follows registry history) : registry.names.Pairwise (· < ·) := by
  have hsorted : registry.names.Pairwise fun a b => decide (a ≤ b) = true :=
    List.pairwise_mergeSort (by simpa using fun a b c => le_trans) (by simpa using le_total) _
  have hnodup : registry.names.Nodup := (List.mergeSort_perm _ _).nodup_iff.2 h.nodup
  exact (hsorted.and hnodup).imp fun ⟨hle, hne⟩ => lt_of_le_of_ne (of_decide_eq_true hle) hne

end Follows

/-! ## Effects -/

section

variable {name : Value} {k : String} {failure : Failure}

theorem run_get? (h : key name = .ok k) (registry : Registry) :
    (get? name).run registry = ⟨registry, [], .ok (registry.lookup k)⟩ := by
  simp only [get?, h, run_bind, run_ofExcept, follow_ok]
  rfl

theorem run_register (h : key name = .ok k) (handler : Option Handler) (registry : Registry) :
    (register name handler).run registry = ⟨registry.insert k handler, [], .ok ()⟩ := by
  simp [register, h]

theorem run_unregister (h : key name = .ok k) (registry : Registry) :
    (unregister name).run registry = ⟨registry.erase k, [], .ok ()⟩ := by
  simp [unregister, h]

theorem run_get?_of_error (h : key name = .error failure) (registry : Registry) :
    (get? name).run registry = ⟨registry, [], .error failure⟩ := by
  simp only [get?, h, run_bind, run_ofExcept, follow_error]

theorem run_register_of_error (h : key name = .error failure) (handler : Option Handler)
    (registry : Registry) :
    (register name handler).run registry = ⟨registry, [], .error failure⟩ := by
  simp only [register, h, run_bind, run_ofExcept, follow_error]

theorem run_unregister_of_error (h : key name = .error failure) (registry : Registry) :
    (unregister name).run registry = ⟨registry, [], .error failure⟩ := by
  simp only [unregister, h, run_bind, run_ofExcept, follow_error]

theorem run_create_of_error (h : key name = .error failure) (resolve : Resolver) (expr : Value)
    (operands : List Value) (registry : Registry) :
    (create resolve name expr operands).run registry = ⟨registry, [], .error failure⟩ := by
  simp only [create, h, run_bind, run_ofExcept, follow_error]

/-- A handler is run whatever is logged of its expression. -/
theorem run_create_of_lookup (h : key name = .ok k) {registry : Registry} {handler : Handler}
    (hfound : registry.lookup k = some handler) (resolve : Resolver) (expr : Value)
    (operands : List Value) :
    (create resolve name expr operands).run registry =
      ⟨registry, (announcement resolve k expr operands).toList, handler expr operands⟩ := by
  simp only [create, h, run_bind, run_ofExcept, follow_ok, run_get, hfound]
  rcases announcement resolve k expr operands with - | event <;>
    simp [Option.forM]

/-- Without a handler, an operation is reported together with the names that there are. -/
theorem run_create_of_lookup_eq_none {s : String} (h : name.text? = some s) (hk : key name = .ok k)
    {registry : Registry} (hnone : registry.lookup k = none) (resolve : Resolver) (expr : Value)
    (operands : List Value) :
    ∃ shown, (create resolve name expr operands).run registry =
      ⟨registry, [], .error (.unknownOperation shown registry.names)⟩ := by
  have hshown : ∃ shown, name.display resolve = .ok shown := by
    cases name with
    | text | operation | connective => exact ⟨_, rfl⟩
    | _ => cases h
  obtain ⟨shown, hshown⟩ := hshown
  exact ⟨shown, by simp [create, hk, hnone, hshown]⟩

end

theorem state_create (resolve : Resolver) (name expr : Value) (operands : List Value)
    (registry : Registry) :
    ((create resolve name expr operands).run registry).state = registry := by
  rcases hk : key name with failure | k
  · rw [run_create_of_error hk]
  · rcases hfound : registry.lookup k with - | handler
    · simp only [create, hk, run_bind, run_ofExcept, follow_ok, run_get, hfound]
      rcases name.display resolve with failure | shown <;> rfl
    · rw [run_create_of_lookup hk hfound]

/-- An action that is given something that is no name does nothing. -/
theorem run_perform_of_text?_eq_none {a : Action} {name : Value} (hname : name ∈ a.names)
    (h : name.text? = none) (registry : Registry) :
    ∃ kind, (perform a).run registry = ⟨registry, [], .error (.operationKind kind)⟩ := by
  have hkey := key_of_text?_eq_none h
  cases a with
  | register other handler =>
    obtain rfl := List.mem_singleton.1 hname
    exact ⟨_, by rw [perform, run_bind, run_register_of_error hkey, follow_error]⟩
  | aliased other source =>
    -- The source is read first, so it is reported where both are no names.
    rcases hsource : source.text? with - | s
    · have hfailed := key_of_text?_eq_none hsource
      exact ⟨_, by rw [perform, run_bind, run_get?_of_error hfailed, follow_error]⟩
    · rcases List.mem_cons.1 hname with rfl | hname
      · rw [h] at hsource
        cases hsource
      · obtain rfl := List.mem_singleton.1 hname
        refine ⟨name.kindName, ?_⟩
        rw [perform, run_bind, run_get? (key_of_text? hsource), follow_ok, run_bind,
          run_register_of_error hkey, follow_error]
        rfl
  | unregister other =>
    obtain rfl := List.mem_singleton.1 hname
    exact ⟨_, by rw [perform, run_bind, run_unregister_of_error hkey, follow_error]⟩
  | get other =>
    obtain rfl := List.mem_singleton.1 hname
    exact ⟨_, by rw [perform, run_bind, run_get?_of_error hkey, follow_error]⟩
  | list => cases hname
  | create resolve other expr operands =>
    obtain rfl := List.mem_singleton.1 hname
    exact ⟨_, by rw [perform, run_bind, run_create_of_error hkey, follow_error]⟩

theorem updatesUnder_of_ok {name : Value} {k : String} (h : key name = .ok k)
    (updates : String → List Update) : updatesUnder name updates = updates k := by
  rw [updatesUnder, h]

theorem updatesUnder_of_error {name : Value} {failure : Failure} (h : key name = .error failure)
    (updates : String → List Update) : updatesUnder name updates = [] := by
  rw [updatesUnder, h]

theorem Follows.perform {registry : Registry} {history : List Update}
    (h : Follows registry history) (a : Action) :
    Follows ((perform a).run registry).state (history ++ updates history a) := by
  cases a with
  | register name handler =>
    rcases hk : key name with failure | k
    · rw [Registry.perform, run_bind, run_register_of_error hk, updates, updatesUnder_of_error hk]
      simpa using h
    · rw [Registry.perform, run_bind, run_register hk, updates, updatesUnder_of_ok hk]
      exact h.insert k handler
  | aliased name source =>
    rcases hsource : key source with failure | found
    · rw [Registry.perform, run_bind, run_get?_of_error hsource, updates,
        updatesUnder_of_error hsource]
      simpa using h
    · rw [Registry.perform, run_bind, run_get? hsource, follow_ok, updates,
        updatesUnder_of_ok hsource, run_bind]
      rcases hk : key name with failure | k
      · rw [run_register_of_error hk, updatesUnder_of_error hk]
        simpa using h
      · rw [run_register hk, updatesUnder_of_ok hk, h.lookup_eq]
        exact h.insert k _
  | unregister name =>
    rcases hk : key name with failure | k
    · rw [Registry.perform, run_bind, run_unregister_of_error hk, updates,
        updatesUnder_of_error hk]
      simpa using h
    · rw [Registry.perform, run_bind, run_unregister hk, updates, updatesUnder_of_ok hk]
      exact h.erase k
  | get name =>
    rw [updates, List.append_nil]
    rcases hk : key name with failure | k
    · rw [Registry.perform, run_bind, run_get?_of_error hk]
      exact h
    · rw [Registry.perform, run_bind, run_get? hk]
      exact h
  | list =>
    rw [updates, List.append_nil]
    exact h
  | create resolve name expr operands =>
    have hstate := state_create resolve name expr operands registry
    rw [updates, List.append_nil, Registry.perform, run_bind, follow]
    split <;> simpa [hstate] using h

theorem follows_recordFrom {registry : Registry} {history : List Update}
    (h : Follows registry history) (actions : List Action) :
    Follows (registry.after actions) (recordFrom history actions) := by
  induction actions generalizing registry history with
  | nil => exact h
  | cons a rest ih => exact ih (h.perform a)

/-- Entries with a key each are as if they had been registered one after the other. -/
theorem follows_of_nodup {entries : List (String × Option Handler)}
    (h : (entries.map Prod.fst).Nodup) :
    Follows ⟨entries⟩ (entries.map fun e => (e.1, some e.2)) where
  nodup := h
  lookup key handler := by
    induction entries using List.reverseRecOn with
    | nil => simp [Registered]
    | append_singleton entries e ih =>
      obtain ⟨name, value⟩ := e
      rw [List.map_append, List.nodup_append] at h
      obtain ⟨hnodup, -, hne⟩ := h
      rw [List.map_append, List.map_singleton, registered_append, List.lookup_append, ← ih hnodup]
      by_cases hkey : name = key
      · have hnone : entries.lookup key = none := by
          rw [List.lookup_eq_none_iff]
          intro other hother
          rw [bne_iff_ne, ← hkey]
          exact (hne _ (List.mem_map_of_mem hother) _ (by simp)).symm
        simp [hkey, hnone]
      · simp only [List.lookup_cons, beq_false_of_ne (Ne.symm hkey), List.lookup_nil,
          Option.or_none, if_neg hkey]

theorem follows_builtin : Follows builtin leafUpdates := by
  have hnodup : (builtin.entries.map Prod.fst).Nodup := by decide
  have h := follows_of_nodup hnodup
  rwa [builtin, List.map_map] at h

/-- After any actions a registry follows their record. -/
theorem follows_record (actions : List Action) :
    Follows (builtin.after actions) (record actions) :=
  follows_recordFrom follows_builtin actions

/-! ## Keys of a record -/

/-- An action updates a key only if it is given a name of the key. -/
theorem exists_key_of_mem_updates {history : List Update} {a : Action} {e : Update}
    (h : e ∈ updates history a) : ∃ name, a.updates? = some name ∧ key name = .ok e.1 := by
  have hunder : ∀ {name : Value} {f : String → List Update}, e ∈ updatesUnder name f →
      ∃ k, key name = .ok k ∧ e ∈ f k := by
    intro name f hmem
    rcases hk : key name with failure | k
    · rw [updatesUnder_of_error hk] at hmem
      cases hmem
    · rw [updatesUnder_of_ok hk] at hmem
      exact ⟨k, rfl, hmem⟩
  cases a with
  | register name handler =>
    obtain ⟨k, hk, hmem⟩ := hunder h
    rw [List.mem_singleton.1 hmem]
    exact ⟨name, rfl, hk⟩
  | aliased name source =>
    obtain ⟨found, -, hmem⟩ := hunder h
    obtain ⟨k, hk, hmem⟩ := hunder hmem
    rw [List.mem_singleton.1 hmem]
    exact ⟨name, rfl, hk⟩
  | unregister name =>
    obtain ⟨k, hk, hmem⟩ := hunder h
    rw [List.mem_singleton.1 hmem]
    exact ⟨name, rfl, hk⟩
  | get | list | create => cases h

/-- The keys of a record are in upper case. -/
theorem uppercase_of_mem_recordFrom {history : List Update} {actions : List Action}
    (h : ∀ e ∈ history, uppercase e.1 = e.1) :
    ∀ e ∈ recordFrom history actions, uppercase e.1 = e.1 := by
  induction actions generalizing history with
  | nil => exact h
  | cons a rest ih =>
    refine ih fun e he => ?_
    rcases List.mem_append.1 he with he | he
    · exact h e he
    · obtain ⟨name, -, hk⟩ := exists_key_of_mem_updates he
      exact uppercase_of_key hk

theorem uppercase_of_mem_leafUpdates : ∀ e ∈ leafUpdates, uppercase e.1 = e.1 := by
  intro e he
  obtain ⟨op, -, rfl⟩ := List.mem_map.1 he
  have hkey : key (.operation op) = .ok op.name := rfl
  exact uppercase_of_key hkey

theorem registered_append_of_forall_ne {history more : List Update} {k : String}
    {handler : Option Handler} (h : ∀ e ∈ more, e.1 ≠ k) :
    Registered (history ++ more) k handler ↔ Registered history k handler := by
  induction more using List.reverseRecOn with
  | nil => rw [List.append_nil]
  | append_singleton more e ih =>
    rw [← List.append_assoc, registered_append, if_neg (h e (by simp))]
    exact ih fun u hu => h u (List.mem_append_left _ hu)

/-- What is registered under a key stays so while nothing is done under its names. -/
theorem registered_recordFrom {history : List Update} {actions : List Action} {k : String}
    {handler : Option Handler}
    (h : ∀ a ∈ actions, ∀ name, a.updates? = some name → key name ≠ .ok k) :
    Registered (recordFrom history actions) k handler ↔ Registered history k handler := by
  induction actions generalizing history with
  | nil => rfl
  | cons a rest ih =>
    have hrest : ∀ b ∈ rest, ∀ name, b.updates? = some name → key name ≠ .ok k :=
      fun b hb => h b (List.mem_cons_of_mem a hb)
    refine (ih hrest).trans (registered_append_of_forall_ne fun e he => ?_)
    obtain ⟨name, hname, hk⟩ := exists_key_of_mem_updates he
    rintro rfl
    exact h a List.mem_cons_self name hname hk

/-! ## Answers -/

/-- A registry that answers as a history tells. -/
structure AnswersFrom (history : List Update) (registry : Registry) : Prop where
  /-- What is no name is reported, and nothing is done. -/
  rejected : ∀ a, ∀ name ∈ a.names, name.text? = none → ∃ kind,
    (perform a).run registry = ⟨registry, [], .error (.operationKind kind)⟩ ∧
    (Failure.operationKind kind).family = .argument ∧
    (Failure.operationKind kind).argument? = some "op"
  /-- The handler under a name is the one that was registered last, and there is none otherwise. -/
  get : ∀ name k, key name = .ok k → ∃ found,
    (perform (.get name)).run registry = ⟨registry, [], .ok (.handler found)⟩ ∧
    ∀ handler, found = some handler ↔ Registered history k (some handler)
  /-- An operation is built by the handler that was registered last, for every expression. -/
  create_of_registered : ∀ resolve name k expr operands handler, key name = .ok k →
    Registered history k (some handler) →
    (create resolve name expr operands).run registry =
      ⟨registry, (announcement resolve k expr operands).toList, handler expr operands⟩
  /-- Without a handler nothing is run, and the operation is reported. -/
  create_of_not_registered : ∀ resolve name k expr operands, key name = .ok k →
    (∀ handler, ¬ Registered history k (some handler)) → ∃ shown,
    (create resolve name expr operands).run registry =
      ⟨registry, [], .error (.unknownOperation shown registry.names)⟩ ∧
    (Failure.unknownOperation shown registry.names).family = .argument ∧
    (Failure.unknownOperation shown registry.names).argument? = some "op"
  /-- The names are those that were registered and not removed since, in code point order. -/
  list : (perform .list).run registry = ⟨registry, [], .ok (.names registry.names)⟩ ∧
    registry.names.Pairwise (· < ·) ∧
    ∀ k, k ∈ registry.names ↔ ∃ handler, Registered history k handler
  /-- Where only handlers were registered, each of the names has one. -/
  get_listed : (∀ e ∈ history, e.2 ≠ some none) → ∀ k ∈ registry.names, ∃ handler,
    Registered history k (some handler) ∧
    (perform (.get (.text k))).run registry = ⟨registry, [], .ok (.handler (some handler))⟩

theorem run_perform_get {name : Value} {k : String} (h : key name = .ok k) (registry : Registry) :
    (perform (.get name)).run registry = ⟨registry, [], .ok (.handler (registry.lookup k))⟩ := by
  rw [perform, run_bind, run_get? h]
  rfl

theorem Follows.answersFrom {registry : Registry} {history : List Update}
    (h : Follows registry history) (hkeys : ∀ e ∈ history, uppercase e.1 = e.1) :
    AnswersFrom history registry where
  rejected a name hname htext := by
    obtain ⟨kind, hrun⟩ := run_perform_of_text?_eq_none hname htext registry
    exact ⟨kind, hrun, rfl, rfl⟩
  get name k hk := by
    refine ⟨_, run_perform_get hk registry, fun handler => ?_⟩
    rw [h.lookup_eq, handlerIn_eq_some_iff]
  create_of_registered resolve name k expr operands handler hk hregistered := by
    refine run_create_of_lookup hk ?_ resolve expr operands
    rw [h.lookup_eq, handlerIn_eq_some_iff.2 hregistered]
  create_of_not_registered resolve name k expr operands hk hnone := by
    have hlookup : registry.lookup k = none := by
      rw [h.lookup_eq, Option.eq_none_iff_forall_ne_some]
      exact fun handler hfound => hnone handler (handlerIn_eq_some_iff.1 hfound)
    cases htext : name.text? with
    | none =>
      rw [key_of_text?_eq_none htext] at hk
      cases hk
    | some s =>
      obtain ⟨shown, hrun⟩ := run_create_of_lookup_eq_none htext hk hlookup resolve expr operands
      exact ⟨shown, hrun, rfl, rfl⟩
  list := ⟨rfl, h.pairwise_names, h.mem_names⟩
  get_listed hcallable k hk := by
    obtain ⟨handler, before, after, hsplit, hafter⟩ := (h.mem_names k).1 hk
    have hmem : (k, some handler) ∈ history := by
      rw [hsplit]
      simp
    obtain - | handler := handler
    · exact absurd rfl (hcallable _ hmem)
    · have hregistered : Registered history k (some handler) := ⟨before, after, hsplit, hafter⟩
      have hkey : key (.text k) = .ok k := by
        rw [key_of_text? (s := k) rfl, hkeys _ hmem]
      refine ⟨handler, hregistered, ?_⟩
      rw [run_perform_get hkey, h.lookup_eq, handlerIn_eq_some_iff.2 hregistered]

/-- After any actions, failed ones included, a registry answers as their record tells. A name that
is a leaf operation has its name for a key, and one that counts as text has the upper case form. And
an alias keeps the handler that its source had, whatever becomes of the source. -/
theorem answers_from_record (actions : List Action) :
    AnswersFrom (record actions) (builtin.after actions) ∧
    (∀ op, key (.operation op) = .ok op.name) ∧
    (∀ name s, name.text? = some s → key name = .ok (uppercase s)) ∧
    ∀ earlier name source later k found handler,
      actions = earlier ++ .aliased name source :: later → key name = .ok k →
      key source = .ok found →
      (∀ a ∈ later, ∀ other, a.updates? = some other → key other ≠ .ok k) →
      Registered (record earlier) found (some handler) →
      Registered (record actions) k (some handler) := by
  refine ⟨(follows_record actions).answersFrom
    (uppercase_of_mem_recordFrom uppercase_of_mem_leafUpdates), fun _ => rfl,
    fun _ _ => key_of_text?, ?_⟩
  rintro earlier name source later k found handler rfl hk hfound hlater hregistered
  have hrecord : record (earlier ++ .aliased name source :: later) =
      recordFrom (record earlier ++ [(k, some (some handler))]) later := by
    rw [record, recordFrom, List.foldl_append, List.foldl_cons]
    change recordFrom (record earlier ++ updates (record earlier) _) later = _
    rw [updates, updatesUnder_of_ok hfound, updatesUnder_of_ok hk,
      handlerIn_eq_some_iff.2 hregistered]
  rw [hrecord, registered_recordFrom hlater, registered_append, if_pos rfl]

end BoundQuery.Registry
