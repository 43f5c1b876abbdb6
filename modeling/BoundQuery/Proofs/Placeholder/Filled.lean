import BoundQuery.Proofs.Text.Unmarked

/-!
# Filled texts

A filled text has values where a text has placeholders. Filling a text takes values from first to
last, whatever they are meant for. The filled text of a predicate is written by the predicate: at
each leaf, each operand stands where the leaf has its placeholder.

## Main definitions

* `Token`: a character, or a value in place of a placeholder.
* `fill`: a text with values in place of its placeholders.
* `Reads`: a filled text is a text, but for its values.
* `Predicate.filled`: the filled text of a predicate.

## Main statements

* `Reads.fill_eq`, `Reads.count_eq`: the values of a filled text fill the text that it is.
* `Predicate.reads_filled`, `Predicate.values_filled`: a predicate's filled text, its text and its
  operands.
-/

namespace BoundQuery

variable {α : Type}

/-- A character of a text, or a value in place of a placeholder. -/
inductive Token (α : Type) where
  | char (c : Char)
  | value (v : α)

/-- The character that stands in the text for a token. -/
def Token.erase : Token α → Char
  | char c => c
  | value _ => '?'

/-- The value of a token that has one. -/
def Token.value? : Token α → Option α
  | char _ => none
  | value v => some v

def chars (s : String) : List (Token α) := s.toList.map .char

def values (ts : List (Token α)) : List α := ts.filterMap Token.value?

/-- Put values in place of the placeholders of a text, from first to last. -/
def fill : List Char → List α → List (Token α)
  | [], _ => []
  | c :: cs, vs =>
    if c = '?' then
      match vs with
      | [] => .char c :: fill cs []
      | v :: rest => .value v :: fill cs rest
    else .char c :: fill cs vs

/-- A filled text is a text, but for its values; these are all that stands for placeholders. -/
structure Reads (ts : List (Token α)) (t : String) : Prop where
  erase : ts.map Token.erase = t.toList
  unmarked : ∀ c, Token.char c ∈ ts → c ≠ '?'

@[simp] theorem values_nil : values ([] : List (Token α)) = [] := rfl

@[simp] theorem values_append (ts us : List (Token α)) :
    values (ts ++ us) = values ts ++ values us := by
  simp [values]

@[simp] theorem values_chars (s : String) : values (chars s : List (Token α)) = [] := by
  rw [values, chars, List.filterMap_map]
  exact List.filterMap_eq_nil_iff.2 fun _ _ => rfl

@[simp] theorem values_cons_value (v : α) (ts : List (Token α)) :
    values (.value v :: ts) = v :: values ts := rfl

@[simp] theorem values_flatten (tss : List (List (Token α))) :
    values tss.flatten = tss.flatMap values := by
  induction tss with
  | nil => rfl
  | cons ts rest ih => simp [ih]

@[simp] theorem values_intercalate (separator : String) (tss : List (List (Token α))) :
    values ((chars separator).intercalate tss) = tss.flatMap values := by
  induction tss with
  | nil => rfl
  | cons ts rest ih =>
    cases rest with
    | nil => simp
    | cons us more => simpa [List.intercalate_cons_cons] using ih

namespace Reads

variable {ts us : List (Token α)} {s t : String}

/-- The values of a filled text fill the text that it is. -/
theorem fill_eq (h : Reads ts t) : fill t.toList (values ts) = ts := by
  obtain ⟨herase, hunmarked⟩ := h
  rw [← herase]
  clear herase
  induction ts with
  | nil => rfl
  | cons token rest ih =>
    have ih' := ih fun c hc => hunmarked c (List.mem_cons_of_mem _ hc)
    cases token with
    | char c =>
      have hc : c ≠ '?' := hunmarked c List.mem_cons_self
      change (if c = '?' then _ else Token.char c :: fill _ (values rest)) = _
      rw [if_neg hc, ih']
    | value v =>
      change Token.value v :: fill _ (values rest) = _
      rw [ih']

/-- A text has as many placeholders as its filled text has values. -/
theorem count_eq (h : Reads ts t) : t.toList.count '?' = (values ts).length := by
  obtain ⟨herase, hunmarked⟩ := h
  rw [← herase]
  clear herase
  induction ts with
  | nil => rfl
  | cons token rest ih =>
    have ih' := ih fun c hc => hunmarked c (List.mem_cons_of_mem _ hc)
    cases token with
    | char c =>
      have hc : c ≠ '?' := hunmarked c List.mem_cons_self
      rw [List.map_cons, Token.erase, List.count_cons_of_ne hc, ih']
      rfl
    | value v =>
      rw [List.map_cons, Token.erase, List.count_cons_self, ih']
      rfl

theorem append (hs : Reads ts s) (ht : Reads us t) : Reads (ts ++ us) (s ++ t) := by
  refine ⟨by simp [hs.erase, ht.erase], ?_⟩
  intro c hc
  rcases List.mem_append.1 hc with hc | hc
  · exact hs.unmarked c hc
  · exact ht.unmarked c hc

theorem of_unmarked (h : Unmarked s) : Reads (chars s : List (Token α)) s := by
  refine ⟨by simp [chars, Function.comp_def, Token.erase], ?_⟩
  intro c hc
  obtain ⟨d, hd, hdc⟩ := List.mem_map.1 hc
  cases hdc
  rintro rfl
  exact h hd

theorem nil : Reads ([] : List (Token α)) "" := ⟨rfl, fun _ h => by cases h⟩

theorem value (v : α) : Reads [Token.value v] placeholder := by
  refine ⟨rfl, ?_⟩
  intro c hc
  cases List.mem_singleton.1 hc

variable {tss : List (List (Token α))} {texts : List String}

theorem flatten (h : List.Forall₂ Reads tss texts) : Reads tss.flatten (String.join texts) := by
  induction h with
  | nil => exact .nil
  | cons hs _ ih =>
    have happ := hs.append ih
    rw [List.flatten_cons]
    exact ⟨by rw [happ.erase]; simp, happ.unmarked⟩

theorem intercalate {separator : String} (hseparator : Unmarked separator)
    (h : List.Forall₂ Reads tss texts) :
    Reads ((chars separator).intercalate tss) (separator.intercalate texts) := by
  induction h with
  | nil => exact ⟨by simp, fun _ h => by cases h⟩
  | cons hs hrest ih =>
    cases hrest with
    | nil => simpa using hs
    | cons ht hmore =>
      rw [List.intercalate_cons_cons, String.intercalate_cons_cons]
      exact (hs.append (.of_unmarked hseparator)).append ih

end Reads

theorem Comparison.unmarked_symbol (op : Comparison) : Unmarked op.symbol := by
  cases op <;> decide

theorem Connective.unmarked_separator (c : Connective) : Unmarked c.separator := by
  cases c <;> decide

namespace Predicate

mutual

/-- The expressions of a predicate, from first to last. -/
def exprs : Predicate α → List String
  | comparison _ expr _ => [expr]
  | between expr _ _ => [expr]
  | isIn expr _ => [expr]
  | nullCheck expr _ => [expr]
  | not child => child.exprs
  | junction _ first rest => first.exprs ++ exprsOfAll rest

def exprsOfAll : List (Predicate α) → List String
  | [] => []
  | p :: rest => p.exprs ++ exprsOfAll rest

end

mutual

/-- The text of a predicate, with each operand in its own place. -/
def filled : Predicate α → List (Token α)
  | comparison op expr value => chars (expr ++ " " ++ op.symbol ++ " ") ++ [.value value]
  | between expr start stop =>
    chars (expr ++ " BETWEEN ") ++ [.value start] ++ chars " AND " ++ [.value stop]
  | isIn expr values =>
    chars (expr ++ " in (") ++ (chars ", ").intercalate (values.map fun v => [.value v]) ++
      chars ")"
  | nullCheck expr negated => chars (expr ++ (if negated then " is not null" else " is null"))
  | not child => chars "not (" ++ child.filled ++ chars ")"
  | junction joiner first rest => chars "(" ++ first.filled ++ joinedFilled joiner rest ++ chars ")"

def joinedFilled (joiner : Connective) : List (Predicate α) → List (Token α)
  | [] => []
  | child :: rest => chars joiner.separator ++ child.filled ++ joinedFilled joiner rest

end

/-- Each value stands for the placeholder that is written for it. -/
private theorem reads_placeholders (values : List α) :
    Reads ((chars ", ").intercalate (values.map fun v => [.value v])) (placeholders values) := by
  refine Reads.intercalate (by decide) ?_
  induction values with
  | nil => exact .nil
  | cons v rest ih => exact .cons (.value v) ih

mutual

/-- Where no expression has a placeholder, the filled text of a predicate is its text, but for its
operands. -/
theorem reads_filled (p : Predicate α) (h : ∀ e ∈ p.exprs, Unmarked e) :
    Reads p.filled p.sql := by
  match p with
  | comparison op expr value =>
    have hexpr : Unmarked expr := h expr List.mem_cons_self
    refine Reads.append (.of_unmarked ?_) (.value value)
    simp only [unmarked_append]
    exact ⟨⟨⟨hexpr, by decide⟩, op.unmarked_symbol⟩, by decide⟩
  | between expr start stop =>
    have hexpr : Unmarked expr := h expr List.mem_cons_self
    have hlead : Unmarked (expr ++ " BETWEEN ") := unmarked_append.2 ⟨hexpr, by decide⟩
    exact (((Reads.of_unmarked hlead).append (.value start)).append
      (.of_unmarked (by decide))).append (.value stop)
  | isIn expr values =>
    have hexpr : Unmarked expr := h expr List.mem_cons_self
    have hlead : Unmarked (expr ++ " in (") := unmarked_append.2 ⟨hexpr, by decide⟩
    exact ((Reads.of_unmarked hlead).append (reads_placeholders values)).append
      (.of_unmarked (by decide))
  | nullCheck expr negated =>
    have hexpr : Unmarked expr := h expr List.mem_cons_self
    refine .of_unmarked (unmarked_append.2 ⟨hexpr, ?_⟩)
    cases negated <;> decide
  | not child =>
    exact ((Reads.of_unmarked (by decide)).append (reads_filled child h)).append
      (.of_unmarked (by decide))
  | junction joiner first rest =>
    simp only [exprs, List.mem_append] at h
    have hfirst := reads_filled first fun e he => h e (.inl he)
    have hrest := reads_joinedFilled joiner rest fun e he => h e (.inr he)
    exact (((Reads.of_unmarked (by decide)).append hfirst).append hrest).append
      (.of_unmarked (by decide))

/-- The same for conditions, each after the connective. -/
theorem reads_joinedFilled (joiner : Connective) (ps : List (Predicate α))
    (h : ∀ e ∈ exprsOfAll ps, Unmarked e) :
    Reads (joinedFilled joiner ps) (joinedSql joiner ps) := by
  match ps with
  | [] => exact .nil
  | p :: rest =>
    simp only [exprsOfAll, List.mem_append] at h
    have hp := reads_filled p fun e he => h e (.inl he)
    have hrest := reads_joinedFilled joiner rest fun e he => h e (.inr he)
    exact ((Reads.of_unmarked joiner.unmarked_separator).append hp).append hrest

end

mutual

/-- The values of a predicate's filled text are its operands, in their order. -/
@[simp] theorem values_filled (p : Predicate α) : values p.filled = p.operands := by
  match p with
  | comparison _ _ _ => simp [filled, operands]
  | between _ _ _ => simp [filled, operands]
  | isIn _ values => simp [filled, operands, List.flatMap_map]
  | nullCheck _ _ => simp [filled, operands]
  | not child => simp [filled, operands, values_filled child]
  | junction joiner first rest =>
    simp [filled, operands, values_filled first, values_joinedFilled joiner rest]

/-- The same for conditions, each after the connective. -/
theorem values_joinedFilled (joiner : Connective) (ps : List (Predicate α)) :
    values (joinedFilled joiner ps) = operandsOfAll ps := by
  match ps with
  | [] => rfl
  | p :: rest =>
    simp [joinedFilled, operandsOfAll, values_filled p, values_joinedFilled joiner rest]

end

end Predicate

end BoundQuery
