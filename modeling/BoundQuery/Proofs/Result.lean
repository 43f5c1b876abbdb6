import BoundQuery.Failure
import Mathlib.Data.List.Forall2

/-!
# Results in sequence

A sequence of computations that may fail has a result exactly when each of them has one, and fails
like the first that fails.
-/

namespace BoundQuery.Result

variable {α β : Type}

theorem bind_eq_ok {x : Except Failure α} {f : α → Except Failure β} {b : β} :
    x >>= f = .ok b ↔ ∃ a, x = .ok a ∧ f a = .ok b := by
  rcases x with failure | a
  · constructor
    · intro h
      cases h
    · rintro ⟨a, ha, -⟩
      cases ha
  · constructor
    · intro h
      exact ⟨a, rfl, h⟩
    · rintro ⟨a, ha, h⟩
      cases ha
      exact h

theorem bind_eq_error {x : Except Failure α} {f : α → Except Failure β} {failure : Failure} :
    x >>= f = .error failure ↔ x = .error failure ∨ ∃ a, x = .ok a ∧ f a = .error failure := by
  cases x with
  | error e => simp [bind, Except.bind]
  | ok a => simp [bind, Except.bind]

theorem map_eq_ok {f : α → β} {x : Except Failure α} {b : β} :
    f <$> x = .ok b ↔ ∃ a, x = .ok a ∧ f a = b := by
  rw [map_eq_pure_bind, bind_eq_ok]
  refine exists_congr fun a => and_congr_right fun _ => ?_
  exact ⟨fun h => Except.ok.inj h, fun h => congrArg Except.ok h⟩

theorem mapM_congr {f g : α → Except Failure β} {l : List α} (h : ∀ a ∈ l, f a = g a) :
    l.mapM f = l.mapM g := by
  induction l with
  | nil => rfl
  | cons a rest ih =>
    rw [List.mapM_cons, List.mapM_cons, h a List.mem_cons_self,
      ih fun b hb => h b (List.mem_cons_of_mem _ hb)]

theorem mapM_eq_ok {f : α → Except Failure β} {l : List α} {bs : List β} :
    l.mapM f = .ok bs ↔ List.Forall₂ (fun a b => f a = .ok b) l bs := by
  induction l generalizing bs with
  | nil =>
    rw [List.forall₂_nil_left_iff]
    exact ⟨fun h => (Except.ok.inj h).symm, fun h => congrArg Except.ok h.symm⟩
  | cons a rest ih =>
    rw [List.mapM_cons, bind_eq_ok, List.forall₂_cons_left_iff]
    refine exists_congr fun b => ?_
    rw [bind_eq_ok]
    constructor
    · rintro ⟨hb, bs', hrest, h⟩
      exact ⟨bs', hb, ih.1 hrest, (Except.ok.inj h).symm⟩
    · rintro ⟨bs', hb, hrest, rfl⟩
      exact ⟨hb, bs', ih.2 hrest, rfl⟩

/-- A sequence fails like the first of its computations that fails. -/
theorem mapM_eq_error_iff {f : α → Except Failure β} {l : List α} {failure : Failure} :
    l.mapM f = .error failure ↔ ∃ before a after, l = before ++ a :: after ∧
      (∀ b ∈ before, ∃ c, f b = .ok c) ∧ f a = .error failure := by
  constructor
  · intro h
    induction l with
    | nil => cases h
    | cons a rest ih =>
      rw [List.mapM_cons] at h
      rcases bind_eq_error.1 h with h | ⟨c, hc, h⟩
      · exact ⟨[], a, rest, rfl, by simp, h⟩
      rcases bind_eq_error.1 h with h | ⟨cs, -, h⟩
      · obtain ⟨before, a', after, rfl, hbefore, ha⟩ := ih h
        exact ⟨a :: before, a', after, rfl, List.forall_mem_cons.2 ⟨⟨c, hc⟩, hbefore⟩, ha⟩
      · cases h
  · rintro ⟨before, a, after, rfl, hbefore, ha⟩
    induction before with
    | nil => rw [List.nil_append, List.mapM_cons, ha]; rfl
    | cons b rest ih =>
      obtain ⟨⟨c, hc⟩, hrest⟩ := List.forall_mem_cons.1 hbefore
      rw [List.cons_append, List.mapM_cons, hc, ih hrest]
      rfl

/-- A sequence fails like one of its computations. -/
theorem mapM_eq_error {f : α → Except Failure β} {l : List α} {failure : Failure}
    (h : l.mapM f = .error failure) : ∃ a ∈ l, f a = .error failure := by
  obtain ⟨before, a, after, rfl, -, ha⟩ := mapM_eq_error_iff.1 h
  exact ⟨a, by simp, ha⟩

/-- Where the results of one computation are those of another, so they are for a sequence. -/
theorem mapM_mono {f g : α → Except Failure β} {l : List α}
    (h : ∀ a ∈ l, ∀ b, f a = .ok b → g a = .ok b) {bs : List β} (hbs : l.mapM f = .ok bs) :
    l.mapM g = .ok bs := by
  induction l generalizing bs with
  | nil => exact hbs
  | cons a rest ih =>
    rw [List.mapM_cons] at hbs ⊢
    obtain ⟨b, hb, hbs⟩ := bind_eq_ok.1 hbs
    obtain ⟨more, hmore, hbs⟩ := bind_eq_ok.1 hbs
    rw [h a List.mem_cons_self b hb, ih (fun c hc => h c (List.mem_cons_of_mem a hc)) hmore]
    exact hbs

/-- Where the results of one computation all have related ones of another, so do those of a
sequence. -/
theorem exists_mapM_eq_ok {γ : Type} {R : γ → β → Prop} {f : α → Except Failure β}
    {g : α → Except Failure γ} {l : List α}
    (h : ∀ a ∈ l, ∀ b, f a = .ok b → ∃ c, g a = .ok c ∧ R c b) {bs : List β}
    (hbs : l.mapM f = .ok bs) : ∃ cs, l.mapM g = .ok cs ∧ List.Forall₂ R cs bs := by
  induction l generalizing bs with
  | nil =>
    cases hbs
    exact ⟨[], rfl, .nil⟩
  | cons a rest ih =>
    rw [List.mapM_cons] at hbs ⊢
    obtain ⟨b, hb, hbs⟩ := bind_eq_ok.1 hbs
    obtain ⟨more, hmore, hbs⟩ := bind_eq_ok.1 hbs
    cases hbs
    obtain ⟨c, hc, hR⟩ := h a List.mem_cons_self b hb
    obtain ⟨cs, hcs, hall⟩ := ih (fun b hb => h b (List.mem_cons_of_mem _ hb)) hmore
    exact ⟨c :: cs, by rw [hc, hcs]; rfl, .cons hR hall⟩

theorem exists_mapM_of_forall {f : α → Except Failure β} {l : List α}
    (h : ∀ a ∈ l, ∃ b, f a = .ok b) : ∃ bs, l.mapM f = .ok bs := by
  induction l with
  | nil => exact ⟨[], rfl⟩
  | cons a rest ih =>
    obtain ⟨b, hb⟩ := h a List.mem_cons_self
    obtain ⟨bs, hbs⟩ := ih fun c hc => h c (List.mem_cons_of_mem a hc)
    exact ⟨b :: bs, by rw [List.mapM_cons, hb, hbs]; rfl⟩

/-- Elements that give the same one by one give the same in sequence. -/
theorem mapM_congr_of_forall₂ {γ : Type} {f : α → Except Failure γ} {g : β → Except Failure γ}
    {as : List α} {bs : List β} (h : List.Forall₂ (fun a b => g b = f a) as bs) :
    bs.mapM g = as.mapM f := by
  induction h with
  | nil => rfl
  | cons hab _ ih => rw [List.mapM_cons, List.mapM_cons, hab, ih]

end BoundQuery.Result
