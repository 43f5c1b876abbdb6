import BoundQuery.Proofs.Placeholder.Filled
import BoundQuery.Proofs.Predicate.Shape

/-!
# Texts of predicates can be read in one way

Where expressions are words, without blanks and without opening parentheses, the text of a
predicate tells where it ends, whatever follows it, and what the shape of the predicate is. What a
text starts with tells which shape it has: a parenthesis starts a group, and otherwise what stands
after the first blank decides. Each shape then ends in its own way, and the conditions of a group
are told apart by what stands between them.

## Main definitions

* `Word`, `Predicate.Worded`: expressions that are words.
* `Predicate.kindOfText`: the shape that a text starts with.

## Main statements

* `Predicate.shape_eq_of_append`: texts of predicates end in one way and have one shape.
* `Predicate.sql_eq_iff`: the text of a predicate is its shape, but for single conditions.
-/

namespace BoundQuery

/-- A text without blanks and without opening parentheses. -/
def Word (s : String) : Prop := ' ' ∉ s.toList ∧ '(' ∉ s.toList

instance : DecidablePred Word := fun s =>
  inferInstanceAs (Decidable (' ' ∉ s.toList ∧ '(' ∉ s.toList))

/-- What stands before the first blank, and what stands after it, can be told apart. -/
theorem append_blank_inj {xs ys xs' ys' : List Char} (hxs : ' ' ∉ xs) (hys : ' ' ∉ ys)
    (h : xs ++ ' ' :: xs' = ys ++ ' ' :: ys') : xs = ys ∧ xs' = ys' := by
  induction xs generalizing ys with
  | nil =>
    cases ys with
    | nil => exact ⟨rfl, (List.cons.inj h).2⟩
    | cons c ys =>
      have hc : ' ' = c := (List.cons.inj h).1
      exact absurd (hc ▸ List.mem_cons_self) hys
  | cons c xs ih =>
    cases ys with
    | nil =>
      have hc : c = ' ' := (List.cons.inj h).1
      exact absurd (hc ▸ List.mem_cons_self) hxs
    | cons d ys =>
      obtain ⟨hcd, hrest⟩ := List.cons.inj h
      obtain ⟨hxy, hrest'⟩ := ih (fun hm => hxs (List.mem_cons_of_mem _ hm))
        (fun hm => hys (List.mem_cons_of_mem _ hm)) hrest
      exact ⟨by rw [hcd, hxy], hrest'⟩

/-- A word ends at the first blank. -/
theorem Word.append_blank_inj {s t : String} (hs : Word s) (ht : Word t) {xs ys : List Char}
    (h : s.toList ++ ' ' :: xs = t.toList ++ ' ' :: ys) : s = t ∧ xs = ys := by
  obtain ⟨hst, hxy⟩ := BoundQuery.append_blank_inj hs.1 ht.1 h
  exact ⟨String.toList_inj.1 hst, hxy⟩

theorem Comparison.word_symbol (op : Comparison) : Word op.symbol := by
  cases op <;> decide

namespace Predicate

variable {α β : Type}

/-- The expressions of a predicate are words. -/
def Worded (p : Predicate α) : Prop := ∀ e ∈ p.exprs, Word e

instance (p : Predicate α) : Decidable p.Worded :=
  inferInstanceAs (Decidable (∀ e ∈ p.exprs, Word e))

/-! ## The shape that a text starts with -/

/-- The shape of a predicate that is no group, by what stands after the first blank. -/
def kindOfTail : List Char → Kind
  | '(' :: _ => .not
  | 'B' :: _ => .between
  | 'i' :: 'n' :: _ => .isIn
  | 'i' :: 's' :: _ => .nullCheck
  | _ => .comparison

/-- The shape that a text starts with. -/
def kindOfText : List Char → Kind
  | '(' :: _ => .junction
  | cs => kindOfTail (cs.dropWhile (· ≠ ' ')).tail

theorem kindOfText_word {s : String} (h : Word s) (rest : List Char) :
    kindOfText (s.toList ++ ' ' :: rest) = kindOfTail rest := by
  obtain ⟨hblank, hopen⟩ := h
  have hdrop : (s.toList ++ ' ' :: rest).dropWhile (· ≠ ' ') = ' ' :: rest := by
    rw [List.dropWhile_append_of_pos]
    · rfl
    · intro c hc
      simp only [decide_eq_true_eq]
      rintro rfl
      exact hblank hc
  have htext : kindOfText (s.toList ++ ' ' :: rest) =
      kindOfTail ((s.toList ++ ' ' :: rest).dropWhile (· ≠ ' ')).tail := by
    cases hs : s.toList with
    | nil => rfl
    | cons c cs =>
      rw [hs] at hopen
      have hc : c ≠ '(' := by
        rintro rfl
        exact hopen List.mem_cons_self
      unfold kindOfText
      split
      · next heq => exact absurd (List.cons.inj heq).1 hc
      · rfl
  rw [htext, hdrop]
  rfl

theorem kindOfTail_symbol (op : Comparison) (rest : List Char) :
    kindOfTail (op.symbol.toList ++ rest) = .comparison := by
  cases op <;> rfl

/-- The text of a predicate starts with its shape. -/
theorem kindOfText_sql {p : Predicate α} (h : p.Worded) (rest : List Char) :
    kindOfText (p.sql.toList ++ rest) = p.kind := by
  cases p with
  | comparison op expr value =>
    have hword := kindOfText_word (h expr List.mem_cons_self)
    simp [sql, hword, kindOfTail_symbol, kind]
  | between expr start stop =>
    have hword := kindOfText_word (h expr List.mem_cons_self)
    simp [sql, hword, kindOfTail, kind]
  | isIn expr values =>
    have hword := kindOfText_word (h expr List.mem_cons_self)
    simp [sql, hword, kindOfTail, kind]
  | nullCheck expr negated =>
    have hword := kindOfText_word (h expr List.mem_cons_self)
    cases negated <;> simp [sql, hword, kindOfTail, kind]
  | not child => simp [sql, kindOfText, kindOfTail, kind]
  | junction joiner first rest => simp [sql, kindOfText, kind]

/-! ## Where texts end -/

theorem toList_placeholders_cons (v : α) (vs : List α) :
    (placeholders (v :: vs)).toList =
      '?' :: (if vs.isEmpty then [] else ',' :: ' ' :: (placeholders vs).toList) := by
  cases vs with
  | nil => simp [placeholders, placeholder]
  | cons w ws =>
    simp only [placeholders, List.map_cons, String.intercalate_cons_cons]
    simp [placeholder]

/-- Placeholders end where the first parenthesis closes, and there are as many as operands. -/
theorem length_eq_of_placeholders {values : List α} {values' : List β} {rest rest' : List Char}
    (h : (placeholders values).toList ++ ')' :: rest =
      (placeholders values').toList ++ ')' :: rest') :
    values.length = values'.length ∧ rest = rest' := by
  induction values generalizing values' with
  | nil =>
    cases values' with
    | nil => exact ⟨rfl, (List.cons.inj h).2⟩
    | cons w ws =>
      rw [toList_placeholders_cons] at h
      simp [placeholders] at h
  | cons v vs ih =>
    cases values' with
    | nil =>
      rw [toList_placeholders_cons] at h
      simp [placeholders] at h
    | cons w ws =>
      rw [toList_placeholders_cons, toList_placeholders_cons] at h
      cases vs with
      | nil =>
        cases ws with
        | nil => simpa using h
        | cons _ _ => simp at h
      | cons _ _ =>
        cases ws with
        | nil => simp at h
        | cons _ _ =>
          obtain ⟨hlength, hrest⟩ := ih (by simpa using h)
          exact ⟨congrArg (· + 1) hlength, hrest⟩

/-- The connective after a condition is told by the text that follows. -/
theorem separator_inj {joiner joiner' : Connective} {rest rest' : List Char}
    (h : joiner.separator.toList ++ rest = joiner'.separator.toList ++ rest') :
    joiner = joiner' ∧ rest = rest' := by
  cases joiner <;> cases joiner' <;> simp [Connective.separator, Connective.name] at h ⊢ <;>
    exact h

mutual

/-- Whatever follows the texts of two predicates, these end at the same place and have the same
shape, where single conditions are leveled. -/
theorem shape_eq_of_append (p : Predicate α) (q : Predicate β) (hp : p.Worded) (hq : q.Worded)
    {rest rest' : List Char} (h : p.sql.toList ++ rest = q.sql.toList ++ rest') :
    p.leveled.shape = q.leveled.shape ∧ rest = rest' := by
  have hkind : p.kind = q.kind := by
    rw [← kindOfText_sql hp rest, h, kindOfText_sql hq]
  match p with
  | comparison op expr _ =>
    cases q with
    | comparison op' expr' _ =>
      have hexpr := hp expr List.mem_cons_self
      have hexpr' := hq expr' List.mem_cons_self
      simp only [sql, String.toList_append, List.append_assoc] at h
      obtain ⟨rfl, htail⟩ := hexpr.append_blank_inj hexpr' h
      obtain ⟨hop, hrest⟩ := op.word_symbol.append_blank_inj op'.word_symbol htail
      obtain rfl := Comparison.symbol_injective hop
      exact ⟨rfl, by simpa using hrest⟩
    | _ => cases hkind
  | between expr _ _ =>
    cases q with
    | between expr' _ _ =>
      have hexpr := hp expr List.mem_cons_self
      have hexpr' := hq expr' List.mem_cons_self
      simp only [sql, String.toList_append, List.append_assoc] at h
      obtain ⟨rfl, htail⟩ := hexpr.append_blank_inj hexpr' h
      exact ⟨rfl, by simpa using htail⟩
    | _ => cases hkind
  | isIn expr values =>
    cases q with
    | isIn expr' values' =>
      have hexpr := hp expr List.mem_cons_self
      have hexpr' := hq expr' List.mem_cons_self
      simp only [sql, String.toList_append, List.append_assoc] at h
      obtain ⟨rfl, htail⟩ := hexpr.append_blank_inj hexpr' h
      obtain ⟨hlength, hrest⟩ := length_eq_of_placeholders (by simpa using htail)
      refine ⟨?_, hrest⟩
      simp only [leveled, shape, map, List.map_const', hlength]
    | _ => cases hkind
  | nullCheck expr negated =>
    cases q with
    | nullCheck expr' negated' =>
      have hexpr := hp expr List.mem_cons_self
      have hexpr' := hq expr' List.mem_cons_self
      have htail : ∀ b : Bool, ((if b then " is not null" else " is null") : String).toList =
          ' ' :: (if b then "is not null" else "is null").toList := by decide
      simp only [sql, String.toList_append, List.append_assoc, htail, List.cons_append] at h
      obtain ⟨rfl, hrest⟩ := hexpr.append_blank_inj hexpr' h
      cases negated <;> cases negated' <;> simp at hrest <;> exact ⟨rfl, hrest⟩
    | _ => cases hkind
  | not child =>
    cases q with
    | not child' =>
      have htexts : child.sql.toList ++ ')' :: rest = child'.sql.toList ++ ')' :: rest' := by
        simpa [sql] using h
      obtain ⟨hchild, hrest⟩ := shape_eq_of_append child child' hp hq htexts
      exact ⟨congrArg not hchild, (List.cons.inj hrest).2⟩
    | _ => cases hkind
  | junction joiner first more =>
    cases q with
    | junction joiner' first' more' =>
      simp only [Worded, exprs, List.forall_mem_append] at hp hq
      have htexts : first.sql.toList ++ ((joinedSql joiner more).toList ++ ')' :: rest) =
          first'.sql.toList ++ ((joinedSql joiner' more').toList ++ ')' :: rest') := by
        simpa [sql] using h
      obtain ⟨hfirst, hmore⟩ := shape_eq_of_append first first' hp.1 hq.1 htexts
      obtain ⟨hmore, hjoiner, hrest⟩ := shapes_eq_of_append more more' hp.2 hq.2 hmore
      refine ⟨?_, hrest⟩
      simp only [shape, leveled, map] at hfirst hmore ⊢
      rw [hjoiner, hfirst, hmore]
    | _ => cases hkind

/-- The same for conditions, each after the connective, up to where their group closes. -/
theorem shapes_eq_of_append {joiner joiner' : Connective} (ps : List (Predicate α))
    (qs : List (Predicate β)) (hps : ∀ e ∈ exprsOfAll ps, Word e)
    (hqs : ∀ e ∈ exprsOfAll qs, Word e) {rest rest' : List Char}
    (h : (joinedSql joiner ps).toList ++ ')' :: rest =
      (joinedSql joiner' qs).toList ++ ')' :: rest') :
    mapAll (fun _ => ()) (leveledAll ps) = mapAll (fun _ => ()) (leveledAll qs) ∧
      (if ps.isEmpty then Connective.and else joiner) =
        (if qs.isEmpty then Connective.and else joiner') ∧ rest = rest' := by
  match ps, qs with
  | [], [] => exact ⟨rfl, rfl, by simpa [joinedSql] using h⟩
  | [], q :: qs => simp [joinedSql, Connective.separator] at h
  | p :: ps, [] => simp [joinedSql, Connective.separator] at h
  | p :: ps, q :: qs =>
    simp only [exprsOfAll, List.forall_mem_append] at hps hqs
    simp only [joinedSql, String.toList_append, List.append_assoc] at h
    obtain ⟨rfl, hconditions⟩ := separator_inj h
    obtain ⟨hp, hmore⟩ := shape_eq_of_append p q hps.1 hqs.1 hconditions
    obtain ⟨hps, -, hrest⟩ := shapes_eq_of_append ps qs hps.2 hqs.2 hmore
    exact ⟨congrArg₂ List.cons hp hps, rfl, hrest⟩

end

/-- The text of a predicate is its shape, where single conditions are leveled. -/
theorem sql_eq_iff {p : Predicate α} {q : Predicate β} (hp : p.Worded) (hq : q.Worded) :
    p.sql = q.sql ↔ p.leveled.shape = q.leveled.shape := by
  constructor
  · intro h
    have htexts : p.sql.toList ++ [] = q.sql.toList ++ [] := by rw [h]
    exact (shape_eq_of_append p q hp hq htexts).1
  · intro h
    have hsql : p.leveled.shape.sql = q.leveled.shape.sql := congrArg sql h
    simpa [shape] using hsql

/-- Predicates have the same text and equal operands exactly if they are equal, where single
conditions are leveled. -/
theorem sql_and_operands_iff {p q : Predicate Value} (hp : p.Worded) (hq : q.Worded) :
    (p.sql = q.sql ∧ Value.sameAll p.operands q.operands = true) ↔
      p.leveled.same q.leveled = true := by
  rw [same_iff, sql_eq_iff hp hq, operands_leveled, operands_leveled]

end Predicate

end BoundQuery
