import BoundQuery.Run
import Mathlib.Data.List.Forall2

/-!
# What operations end in

What an operation ends in is a condition on its state, whether it succeeds or not, and one on its
result, where there is one. That it returns says that there is a result; what it yields is a
condition on all that is there when there is one. Each is put together step by step, and along a
traversal it follows from what each of its steps does.

## Main definitions

* `Run.Ends`: conditions on the state and on the result of an operation.
* `Run.Returns`: an operation has a result, with a condition on it.
* `Run.Yields`: a condition on result, events and state, where there is a result.

## Main statements

* `Run.ends_mapM`, `Run.returns_mapM`, `Run.yields_mapM`: a traversal, from its steps.
-/

namespace BoundQuery.Run

variable {σ α β : Type}

theorem result_follow_of_ok {o : Outcome σ α} {a : α} (h : o.result = .ok a) (f : α → Run σ β) :
    (follow o f).result = ((f a).run o.state).result := by
  simp only [follow, h]

theorem state_follow_of_ok {o : Outcome σ α} {a : α} (h : o.result = .ok a) (f : α → Run σ β) :
    (follow o f).state = ((f a).run o.state).state := by
  simp only [follow, h]

theorem events_follow_of_ok {o : Outcome σ α} {a : α} (h : o.result = .ok a) (f : α → Run σ β) :
    (follow o f).events = o.events ++ ((f a).run o.state).events := by
  simp only [follow, h]

/-- The state that an operation ends in satisfies `P`, and its result, if any, satisfies `Q`. -/
def Ends (x : Run σ α) (s : σ) (P : σ → Prop) (Q : α → σ → Prop) : Prop :=
  P (x.run s).state ∧ ∀ a, (x.run s).result = .ok a → Q a (x.run s).state

/-- An operation has a result that satisfies `Q`. -/
def Returns (x : Run σ α) (s : σ) (Q : α → σ → Prop) : Prop :=
  ∃ a, (x.run s).result = .ok a ∧ Q a (x.run s).state

/-- Where an operation has a result, this, the events and the state satisfy `Q`. -/
def Yields (x : Run σ α) (s : σ) (Q : α → List Event → σ → Prop) : Prop :=
  ∀ a, (x.run s).result = .ok a → Q a (x.run s).events (x.run s).state

theorem ends_pure {a : α} {s : σ} {P : σ → Prop} {Q : α → σ → Prop} (hP : P s) (hQ : Q a s) :
    Ends (pure a) s P Q := by
  refine ⟨hP, ?_⟩
  intro b hb
  cases hb
  exact hQ

theorem ends_ofExcept {x : Except Failure α} {s : σ} {P : σ → Prop} {Q : α → σ → Prop}
    (hP : P s) (hQ : ∀ a, x = .ok a → Q a s) : Ends (ofExcept x) s P Q := ⟨hP, hQ⟩

theorem ends_fail {failure : Failure} {s : σ} {P : σ → Prop} {Q : α → σ → Prop} (hP : P s) :
    Ends (fail failure) s P Q := by
  refine ⟨hP, ?_⟩
  intro a ha
  cases ha

theorem Ends.bind {x : Run σ α} {f : α → Run σ β} {s : σ} {P P' : σ → Prop}
    {Q : α → σ → Prop} {Q' : β → σ → Prop} (hx : Ends x s P Q) (hP : ∀ t, P t → P' t)
    (hf : ∀ a t, P t → Q a t → Ends (f a) t P' Q') : Ends (x >>= f) s P' Q' := by
  rw [Ends, run_bind]
  rcases ho : (x.run s).result with failure | a
  · simp only [follow, ho]
    exact ⟨hP _ hx.1, fun b hb => by cases hb⟩
  · rw [result_follow_of_ok ho, state_follow_of_ok ho]
    exact hf a _ hx.1 (hx.2 a ho)

theorem Returns.bind {x : Run σ α} {f : α → Run σ β} {s : σ} {Q : α → σ → Prop}
    {Q' : β → σ → Prop} (hx : Returns x s Q) (hf : ∀ a t, Q a t → Returns (f a) t Q') :
    Returns (x >>= f) s Q' := by
  obtain ⟨a, ha, hQ⟩ := hx
  rw [Returns, run_bind, result_follow_of_ok ha, state_follow_of_ok ha]
  exact hf a _ hQ

theorem yields_pure {a : α} {s : σ} {Q : α → List Event → σ → Prop} (hQ : Q a [] s) :
    Yields (pure a) s Q := by
  intro b hb
  cases hb
  exact hQ

theorem Yields.of_run_eq {x y : Run σ α} {s : σ} {Q : α → List Event → σ → Prop}
    (hxy : x.run s = y.run s) (h : Yields y s Q) : Yields x s Q := by
  rw [Yields, hxy]
  exact h

theorem Yields.bind {x : Run σ α} {f : α → Run σ β} {s : σ} {Q : α → List Event → σ → Prop}
    {Q' : β → List Event → σ → Prop} (hx : Yields x s Q)
    (hf : ∀ a events t, Q a events t →
      Yields (f a) t fun b more u => Q' b (events ++ more) u) : Yields (x >>= f) s Q' := by
  intro b hb
  rw [run_bind] at hb ⊢
  rcases ho : (x.run s).result with failure | a
  · simp only [follow, ho] at hb
    cases hb
  · rw [result_follow_of_ok ho] at hb
    rw [events_follow_of_ok ho, state_follow_of_ok ho]
    exact hf a _ _ (hx a ho) b hb

section Traversal

variable {P : σ → Prop} {R : σ → σ → Prop} {f : α → Run σ β}

/-- A traversal ends well if each of its steps does, where later states go on from earlier ones by
`R` and conditions on results outlast that. -/
theorem ends_mapM {Q : α → β → σ → Prop} (hrefl : ∀ s, R s s)
    (htrans : ∀ {s t u}, R s t → R t u → R s u)
    (hmono : ∀ {a b s t}, R s t → Q a b s → Q a b t) {l : List α}
    (hf : ∀ a ∈ l, ∀ s, P s → Ends (f a) s (fun t => P t ∧ R s t) (Q a)) {s : σ} (hs : P s) :
    Ends (l.mapM f) s (fun t => P t ∧ R s t)
      (fun bs t => List.Forall₂ (fun a b => Q a b t) l bs) := by
  induction l generalizing s with
  | nil => exact ends_pure ⟨hs, hrefl s⟩ .nil
  | cons a rest ih =>
    rw [List.mapM_cons]
    refine (hf a List.mem_cons_self s hs).bind (fun _ h => h) ?_
    intro b t ht hb
    have hrest := ih (fun a' ha' => hf a' (List.mem_cons_of_mem _ ha')) ht.1
    refine hrest.bind (fun u hu => ⟨hu.1, htrans ht.2 hu.2⟩) ?_
    intro bs u hu hbs
    exact ends_pure ⟨hu.1, htrans ht.2 hu.2⟩ (.cons (hmono hu.2 hb) hbs)

/-- A traversal returns if each of its steps does. -/
theorem returns_mapM {l : List α} (hf : ∀ a ∈ l, ∀ s, P s → Returns (f a) s fun _ => P) {s : σ}
    (hs : P s) : Returns (l.mapM f) s fun _ => P := by
  induction l generalizing s with
  | nil => exact ⟨[], rfl, hs⟩
  | cons a rest ih =>
    rw [List.mapM_cons]
    refine (hf a List.mem_cons_self s hs).bind ?_
    intro b t ht
    refine (ih (fun a' ha' => hf a' (List.mem_cons_of_mem _ ha')) ht).bind ?_
    intro bs u hu
    exact ⟨b :: bs, rfl, hu⟩

/-- What the steps of a traversal yield one after the other the traversal yields, where the
conditions on them are put together as the steps follow each other. -/
theorem yields_mapM {T : List α → List β → σ → List Event → σ → Prop}
    (hnil : ∀ s, T [] [] s [] s)
    (happend : ∀ {as as' bs bs' s events t more u}, T as bs s events t → T as' bs' t more u →
      T (as ++ as') (bs ++ bs') s (events ++ more) u)
    (hkeep : ∀ {as bs s events t}, P s → T as bs s events t → P t) {l : List α}
    (hf : ∀ a ∈ l, ∀ s, P s → Yields (f a) s fun b => T [a] [b] s) {s : σ} (hs : P s) :
    Yields (l.mapM f) s fun bs => T l bs s := by
  induction l generalizing s with
  | nil => exact yields_pure (hnil s)
  | cons a rest ih =>
    rw [List.mapM_cons]
    refine (hf a List.mem_cons_self s hs).bind ?_
    intro b events t ht
    refine (ih (fun a' ha' => hf a' (List.mem_cons_of_mem _ ha')) (hkeep hs ht)).bind ?_
    intro bs more u hu
    refine yields_pure ?_
    rw [List.append_nil]
    exact happend ht hu

end Traversal

end BoundQuery.Run
