import BoundQuery.Proofs.Placeholder.Filled

/-!
# Placeholders in raw text

A placeholder that comes with raw text is open until a value is supplied for it. Supplying a filled
text takes values from first to last and leaves everything but open placeholders as it is; so what
is supplied to a text that goes on after another is what the other one left.

## Main definitions

* `openMarks`: the number of open placeholders of a filled text.
* `supply`: a filled text with values for its open placeholders.
* `Value.raw`: the characters of the text that a value counts as.

## Main statements

* `supply_append`: supplying one text after another.
* `values_supply_of_values_eq_nil`: raw text takes as many values as it has placeholders.
* `count_list`, `count_fragments`: the placeholders of clauses made of raw text.
-/

namespace BoundQuery

variable {α : Type}

/-- A token is a placeholder that no value stands for. -/
def Token.isOpen : Token α → Bool
  | char c => c == '?'
  | value _ => false

/-- The number of placeholders that no value stands for. -/
def openMarks (ts : List (Token α)) : Nat := ts.countP Token.isOpen

/-- Put values in place of the open placeholders, from first to last. -/
def supply : List (Token α) → List α → List (Token α)
  | [], _ => []
  | token :: ts, vs =>
    if token.isOpen then
      match vs with
      | [] => token :: ts
      | v :: rest => .value v :: supply ts rest
    else token :: supply ts vs

@[simp] theorem openMarks_nil : openMarks ([] : List (Token α)) = 0 := rfl

@[simp] theorem openMarks_append (ts us : List (Token α)) :
    openMarks (ts ++ us) = openMarks ts + openMarks us := by
  simp [openMarks]

@[simp] theorem openMarks_chars (s : String) :
    openMarks (chars s : List (Token α)) = s.toList.count '?' := by
  rw [openMarks, chars, List.countP_map]
  rfl

theorem openMarks_cons_of_open {token : Token α} (h : token.isOpen = true)
    (ts : List (Token α)) : openMarks (token :: ts) = openMarks ts + 1 :=
  List.countP_cons_of_pos h

theorem openMarks_cons_of_closed {token : Token α} (h : token.isOpen = false)
    (ts : List (Token α)) : openMarks (token :: ts) = openMarks ts :=
  List.countP_cons_of_neg (by simp [h])

theorem openMarks_eq_zero_iff {ts : List (Token α)} :
    openMarks ts = 0 ↔ ∀ c, Token.char c ∈ ts → c ≠ '?' := by
  rw [openMarks, List.countP_eq_zero]
  constructor
  · intro h c hc
    simpa [Token.isOpen] using h _ hc
  · intro h token htoken
    cases token with
    | char c => simpa [Token.isOpen] using h c htoken
    | value v => simp [Token.isOpen]

theorem Reads.openMarks_eq {ts : List (Token α)} {t : String} (h : Reads ts t) :
    openMarks ts = 0 :=
  openMarks_eq_zero_iff.2 h.unmarked

theorem openMarks_chars_of_unmarked {s : String} (h : Unmarked s) :
    openMarks (chars s : List (Token α)) = 0 := by
  rw [openMarks_chars]
  exact List.count_eq_zero.2 h

/-- A separator without placeholders adds none. -/
theorem openMarks_intercalate {separator : String} (h : Unmarked separator)
    (tss : List (List (Token α))) :
    openMarks ((chars separator).intercalate tss) = openMarks tss.flatten := by
  induction tss with
  | nil => rfl
  | cons ts rest ih =>
    cases rest with
    | nil => simp
    | cons us more =>
      rw [List.intercalate_cons_cons, openMarks_append, openMarks_append, ih,
        openMarks_chars_of_unmarked h, Nat.add_zero, ← openMarks_append]
      rfl

/-! ## Texts of tokens -/

@[simp] theorem map_erase_chars (s : String) :
    (chars s : List (Token α)).map Token.erase = s.toList := by
  simp [chars, Function.comp_def, Token.erase]

theorem map_erase_intercalate (separator : String) {tss : List (List (Token α))}
    {texts : List String}
    (h : List.Forall₂ (fun ts t => ts.map Token.erase = t.toList) tss texts) :
    ((chars separator).intercalate tss).map Token.erase =
      (separator.intercalate texts).toList := by
  induction h with
  | nil => simp
  | cons hs hrest ih =>
    cases hrest with
    | nil => simpa using hs
    | cons ht hmore =>
      rw [List.intercalate_cons_cons, String.intercalate_cons_cons, List.map_append,
        List.map_append, ih, hs, map_erase_chars, String.toList_append, String.toList_append]

theorem map_erase_flatten {tss : List (List (Token α))} {texts : List String}
    (h : List.Forall₂ (fun ts t => ts.map Token.erase = t.toList) tss texts) :
    tss.flatten.map Token.erase = (String.join texts).toList := by
  induction h with
  | nil => rfl
  | cons hs _ ih => simp [hs, ih]

/-! ## Supplying -/

section Supply

variable {token : Token α} {ts us : List (Token α)}

theorem supply_cons_of_open (h : token.isOpen = true) (v : α) (vs : List α) :
    supply (token :: ts) (v :: vs) = .value v :: supply ts vs := by
  rw [supply, if_pos h]

theorem supply_cons_of_closed (h : token.isOpen = false) (vs : List α) :
    supply (token :: ts) vs = token :: supply ts vs := by
  simp [supply, h]

@[simp] theorem supply_nil (ts : List (Token α)) : supply ts [] = ts := by
  induction ts with
  | nil => rfl
  | cons token rest ih => simp only [supply, ih, ite_self]

/-- What is supplied to the second of two texts is what the first one left. -/
theorem supply_append (ts us : List (Token α)) (vs : List α) :
    supply (ts ++ us) vs = supply ts vs ++ supply us (vs.drop (openMarks ts)) := by
  induction ts generalizing vs with
  | nil => rfl
  | cons token rest ih =>
    cases h : token.isOpen with
    | false =>
      rw [List.cons_append, supply_cons_of_closed h, supply_cons_of_closed h,
        openMarks_cons_of_closed h, ih, List.cons_append]
    | true =>
      cases vs with
      | nil => simp
      | cons v more =>
        rw [List.cons_append, supply_cons_of_open h, supply_cons_of_open h,
          openMarks_cons_of_open h, ih, List.drop_succ_cons, List.cons_append]

/-- Where nothing is open, nothing is supplied. -/
theorem supply_of_openMarks_eq_zero (h : openMarks ts = 0) (vs : List α) : supply ts vs = ts := by
  induction ts with
  | nil => rfl
  | cons token rest ih =>
    cases hopen : token.isOpen with
    | false =>
      rw [openMarks_cons_of_closed hopen] at h
      rw [supply_cons_of_closed hopen, ih h]
    | true =>
      rw [openMarks_cons_of_open hopen] at h
      cases h

/-- Supplying values changes nothing in the text. -/
@[simp] theorem map_erase_supply (ts : List (Token α)) (vs : List α) :
    (supply ts vs).map Token.erase = ts.map Token.erase := by
  induction ts generalizing vs with
  | nil => rfl
  | cons token rest ih =>
    cases h : token.isOpen with
    | false => rw [supply_cons_of_closed h, List.map_cons, List.map_cons, ih]
    | true =>
      cases vs with
      | nil => rw [supply_nil]
      | cons v more =>
        have herase : token.erase = '?' := by
          cases token with
          | char c => exact eq_of_beq h
          | value w => cases h
        rw [supply_cons_of_open h, List.map_cons, List.map_cons, ih, herase, Token.erase]

/-- With as many values as there are open placeholders, none of these stays open. -/
theorem openMarks_supply {vs : List α} (h : vs.length = openMarks ts) :
    openMarks (supply ts vs) = 0 := by
  induction ts generalizing vs with
  | nil => rfl
  | cons token rest ih =>
    cases hopen : token.isOpen with
    | false =>
      rw [openMarks_cons_of_closed hopen] at h
      rw [supply_cons_of_closed hopen, openMarks_cons_of_closed hopen, ih h]
    | true =>
      rw [openMarks_cons_of_open hopen] at h
      cases vs with
      | nil => cases h
      | cons v more =>
        rw [supply_cons_of_open hopen, openMarks_cons_of_closed rfl, ih (Nat.succ.inj h)]

/-- Raw text takes as many values as it has placeholders. -/
theorem values_supply_of_values_eq_nil (h : values ts = []) (vs : List α) :
    values (supply ts vs) = vs.take (openMarks ts) := by
  induction ts generalizing vs with
  | nil => simp [supply]
  | cons token rest ih =>
    cases token with
    | value v => cases h
    | char c =>
      have hrest : values rest = [] := h
      cases hopen : (Token.char c : Token α).isOpen with
      | false =>
        rw [supply_cons_of_closed hopen, openMarks_cons_of_closed hopen]
        exact ih hrest vs
      | true =>
        cases vs with
        | nil => rw [supply_nil, h, List.take_nil]
        | cons v more =>
          rw [supply_cons_of_open hopen, openMarks_cons_of_open hopen, List.take_succ_cons,
            values_cons_value, ih hrest]

/-- Separators without placeholders take no values. -/
theorem values_supply_intercalate {separator : String} (h : Unmarked separator)
    (tss : List (List (Token α))) (vs : List α) :
    values (supply ((chars separator).intercalate tss) vs) = values (supply tss.flatten vs) := by
  induction tss generalizing vs with
  | nil => rfl
  | cons ts rest ih =>
    cases rest with
    | nil => simp
    | cons us more =>
      have hclosed := openMarks_chars_of_unmarked (α := α) h
      rw [List.intercalate_cons_cons, List.append_assoc, List.flatten_cons, supply_append,
        supply_append, supply_append ts, supply_of_openMarks_eq_zero hclosed, hclosed,
        List.drop_zero]
      simp only [values_append, values_chars, List.nil_append, ih]

/-- With as many values as there are open placeholders, raw text takes those that the text before it
has left, and nothing is left for what follows. -/
theorem values_supply_of_length_eq {raw tail : List (Token α)} {vs : List α}
    (hraw : values raw = []) (htail : openMarks tail = 0)
    (h : vs.length = openMarks ts + openMarks raw) :
    values (supply (ts ++ raw ++ tail) vs) =
      values (supply ts vs) ++ vs.drop (openMarks ts) ++ values tail := by
  have hrest : (vs.drop (openMarks ts)).take (openMarks raw) = vs.drop (openMarks ts) := by
    refine List.take_of_length_le ?_
    rw [List.length_drop]
    omega
  rw [supply_append, supply_of_openMarks_eq_zero htail, supply_append, values_append, values_append,
    values_supply_of_values_eq_nil hraw, hrest]

end Supply

/-! ## The placeholders of raw text -/

def Value.raw (v : Value) : List Char := (v.text?.getD "").toList

theorem Value.not_mem_raw {v : Value} (h : v.Unmarked) : '?' ∉ v.raw := by
  rw [raw]
  cases hs : v.text? with
  | none => simp
  | some s => exact h s hs

theorem Value.raw_of_text? {v : Value} {s : String} (h : v.text? = some s) :
    v.raw = s.toList := by
  rw [raw, h]
  rfl

namespace Clause

theorem count_intercalate {separator : String} (h : Unmarked separator) (texts : List String) :
    (separator.intercalate texts).toList.count '?' =
      (texts.flatMap String.toList).count '?' := by
  induction texts with
  | nil => simp
  | cons s rest ih =>
    cases rest with
    | nil => simp
    | cons t more =>
      rw [String.intercalate_cons_cons, String.toList_append, String.toList_append,
        List.count_append, List.count_append, ih, List.count_eq_zero.2 h, Nat.add_zero,
        ← List.count_append]
      rfl

/-- The texts that items count as have the characters of the items. -/
theorem flatMap_toList_textsFrom {index : Nat} {items : List Value} {texts : List String}
    (h : textsFrom index items = .ok texts) :
    texts.flatMap String.toList = items.flatMap Value.raw := by
  induction items generalizing index texts with
  | nil =>
    cases h
    rfl
  | cons v rest ih =>
    unfold textsFrom at h
    cases hv : v.text? with
    | none =>
      rw [hv] at h
      cases h
    | some s =>
      rw [hv] at h
      obtain ⟨more, hmore, htexts⟩ := Result.bind_eq_ok.1 h
      cases htexts
      rw [List.flatMap_cons, List.flatMap_cons, ih hmore, Value.raw_of_text? hv]

theorem count_joinTexts {separator t : String} {items : List Value} (h : Unmarked separator)
    (ht : joinTexts separator items = .ok t) :
    t.toList.count '?' = (items.flatMap Value.raw).count '?' := by
  obtain ⟨texts, htexts, ht⟩ := Result.bind_eq_ok.1 ht
  cases ht
  rw [count_intercalate h, flatMap_toList_textsFrom htexts]

/-- A clause of raw texts has their placeholders. -/
theorem count_list {lead t : String} {items : List Value} (hlead : Unmarked lead)
    (ht : list lead items = .ok t) :
    t.toList.count '?' = (items.flatMap Value.raw).count '?' := by
  unfold list at ht
  split at ht
  · cases ht
    rfl
  · obtain ⟨joined, hjoined, ht⟩ := Result.bind_eq_ok.1 ht
    cases ht
    rw [String.toList_append, List.count_append, List.count_eq_zero.2 hlead, Nat.zero_add,
      count_joinTexts (by decide) hjoined]

/-- A clause of joined sources has their placeholders. -/
theorem count_fragments {pieces : List Fragment} {t : String}
    (h : ∀ f ∈ pieces, f.separator.Unmarked) (ht : fragments .null pieces = .ok t) :
    t.toList.count '?' = (pieces.flatMap fun f => f.expression.raw).count '?' := by
  cases pieces with
  | nil =>
    cases ht
    rfl
  | cons first rest =>
    have hfirst := List.count_eq_zero.2 (Value.not_mem_raw (h first List.mem_cons_self))
    have hseparators := fun f hf => h f (List.mem_cons_of_mem first hf)
    have hrest : ((rest.flatMap fun f => [f.separator, f.expression]).flatMap Value.raw).count
        '?' = (rest.flatMap fun f => f.expression.raw).count '?' := by
      clear h ht
      induction rest with
      | nil => rfl
      | cons f more ih =>
        have hf := List.count_eq_zero.2 (Value.not_mem_raw (hseparators f List.mem_cons_self))
        have hmore := ih fun g hg => hseparators g (List.mem_cons_of_mem f hg)
        simp only [List.flatMap_cons, List.cons_append, List.nil_append, List.count_append, hf,
          hmore, Nat.zero_add]
    rw [count_joinTexts (by decide) ht, List.flatMap_cons, List.flatMap_cons, List.flatMap_cons]
    simp only [Value.isNull, if_true, List.count_append, hfirst, hrest, Nat.zero_add]

end Clause

end BoundQuery
