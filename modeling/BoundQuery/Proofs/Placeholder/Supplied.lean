import BoundQuery.Proofs.Placeholder.Raw
import BoundQuery.Proofs.Placeholder.Statement

/-!
# Supplied statements

Columns and sources may bring placeholders of their own. A statement is supplied when it has a
directly bound value for each of them and no other raw text has a placeholder. What it means puts
these values in place of the open placeholders of its filled text, from first to last; then none is
open any more.

The values of what it means are those that it compiles to. But these begin with the values of the
subselects among the columns, and the directly bound ones come after them: so the order is the same
where no column with a placeholder of its own comes before a subselect that has values.

## Main definitions

* `Statement.Supplied`: a statement with a directly bound value for every placeholder of its own.
* `Statement.meant`: the filled text of a statement, supplied with the directly bound values.
* `Agree`: some values are others, perhaps in another order.

## Main statements

* `Statement.Supplied.erases_meant`: what a statement means is its text, but for values.
* `Statement.Supplied.openMarks_meant`: no placeholder stays open.
* `Statement.Supplied.agree_meant`: the values are those of the statement compiled.
-/

namespace BoundQuery

/-! ## Supplied statements -/

/-- A column is a text or a subselect. -/
def Value.IsColumn (v : Value) : Prop := (∃ s, v.text? = some s) ∨ ∃ r, v.subselect? = some r

/-- The raw text of columns and sources. -/
def Statement.raw (s : Statement) : List Char :=
  s.columns.flatMap Value.raw ++
    (s.sources.flatMap Value.raw ++ s.joins.flatMap fun j => j.source.raw)

/-- Placeholders are written by conditions, columns and sources alone, and there is a directly bound
value for each of those that columns and sources bring. -/
structure Statement.Supplied (s : Statement) : Prop where
  label : s.label = .null ∨ s.label.Plain
  columns : ∀ v ∈ s.columns, v.IsColumn
  conditions : ∀ filter, ∀ c ∈ s.conditions filter, c.predicate.Plain
  groupings : ∀ v ∈ s.groupings, v.Unmarked
  orderings : ∀ v ∈ s.orderings, v.Unmarked
  branches : ∀ v ∈ s.branches, ∃ r, v = .statement r
  supplied : (s.boundIn .text).length = s.raw.count '?'

/-- The filled text of a statement, supplied with its directly bound values. -/
def Statement.meant (meant : Ref → Filling) (variant : Variant) (s : Statement) : Filling := do
  let ts ← s.filled meant variant
  return supply ts (s.boundIn .text)

/-! ## The text of what is meant -/

/-- Where there is a text, there is a filled one that is this text but for its values. -/
def Erases (x : Except Failure String) (filling : Filling) : Prop :=
  ∀ t, x = .ok t → ∃ ts, filling = .ok ts ∧ ts.map Token.erase = t.toList

section Texts

variable {f : Resolver} {fill : Ref → Filling}

/-- A text has the same display and the same filled text whatever those of statements are. -/
theorem Value.display_of_text? {v : Value} {s : String} (h : v.text? = some s) :
    ∃ t, t.toList.count '?' = v.raw.count '?' ∧ (∀ resolve, v.display resolve = .ok t) ∧
      ∀ fill, v.filled fill = .ok (chars t) := by
  cases v with
  | text t => exact ⟨t, rfl, fun _ => rfl, fun _ => rfl⟩
  | operation op => exact ⟨_, by cases op <;> decide, fun _ => rfl, fun _ => rfl⟩
  | connective c => exact ⟨_, by cases c <;> decide, fun _ => rfl, fun _ => rfl⟩
  | _ => cases h

theorem Value.IsColumn.erases {v : Value} (hv : v.IsColumn)
    (h : ∀ r ∈ v.shown, Erases (f r) (fill r)) : Erases (v.display f) (v.filled fill) := by
  rcases hv with ⟨s, hs⟩ | ⟨r, hr⟩
  · obtain ⟨t, -, hdisplay, hfilled⟩ := Value.display_of_text? hs
    intro shown hshown
    rw [hdisplay] at hshown
    cases hshown
    exact ⟨_, hfilled fill, map_erase_chars t⟩
  · rw [(Value.subselect?_eq_some.1 hr).1] at h ⊢
    exact h r List.mem_cons_self

namespace Statement

theorem erases_filledColumns {columns : List Value} (hcolumns : ∀ v ∈ columns, v.IsColumn)
    (h : ∀ r ∈ columns.flatMap Value.shown, Erases (f r) (fill r)) (distinct : Bool) :
    Erases (Clause.select f columns distinct) (filledColumns fill columns distinct) := by
  intro t ht
  cases columns with
  | nil =>
    cases ht
    exact ⟨_, rfl, map_erase_chars _⟩
  | cons v rest =>
    obtain ⟨texts, htexts, ht⟩ := Result.bind_eq_ok.1 ht
    cases ht
    obtain ⟨tss, htss, herase⟩ := Result.exists_mapM_eq_ok (fun w hw => (hcolumns w hw).erases
      fun r hr => h r (List.mem_flatMap.2 ⟨w, hw, hr⟩)) htexts
    refine ⟨chars (if distinct then "SELECT distinct " else "SELECT ") ++
      (chars ", ").intercalate tss, ?_, ?_⟩
    · simp only [filledColumns, htss]
      rfl
    · rw [List.map_append, map_erase_chars, map_erase_intercalate ", " herase,
        String.toList_append]

theorem erases_filledBranches {branches : List Value}
    (hbranches : ∀ v ∈ branches, ∃ r, v = .statement r)
    (h : ∀ r ∈ branches.flatMap Value.shown, Erases (f r) (fill r)) :
    Erases (Clause.union f branches) (filledBranches fill branches) := by
  intro t ht
  obtain ⟨texts, htexts, ht⟩ := Result.bind_eq_ok.1 ht
  cases ht
  have herases : ∀ v ∈ branches, Erases (v.display f) (v.filled fill) := by
    intro v hv
    obtain ⟨r, rfl⟩ := hbranches v hv
    exact h r (List.mem_flatMap.2 ⟨_, hv, List.mem_cons_self⟩)
  obtain ⟨tss, htss, herase⟩ := Result.exists_mapM_eq_ok herases htexts
  refine ⟨(tss.map (chars " UNION " ++ ·)).flatten, ?_, map_erase_flatten ?_⟩
  · simp only [filledBranches, htss]
    rfl
  · rw [List.forall₂_map_left_iff, List.forall₂_map_right_iff]
    refine herase.imp fun ts t hts => ?_
    rw [List.map_append, map_erase_chars, hts, String.toList_append]

theorem Supplied.erases_filledBody {s : Statement} (hs : s.Supplied)
    (h : ∀ r ∈ s.shown, Erases (f r) (fill r)) : Erases (s.body f) (s.filledBody fill) := by
  intro t ht
  simp only [shown, List.mem_append] at h
  obtain ⟨columns, hcolumns, ht⟩ := Result.bind_eq_ok.1 ht
  obtain ⟨sources, hsources, ht⟩ := Result.bind_eq_ok.1 ht
  obtain ⟨joins, hjoins, ht⟩ := Result.bind_eq_ok.1 ht
  obtain ⟨rows, hrows, ht⟩ := Result.bind_eq_ok.1 ht
  obtain ⟨groupings, hgroupings, ht⟩ := Result.bind_eq_ok.1 ht
  obtain ⟨groups, hgroups, ht⟩ := Result.bind_eq_ok.1 ht
  obtain ⟨orderings, horderings, ht⟩ := Result.bind_eq_ok.1 ht
  obtain ⟨limit, hlimit, ht⟩ := Result.bind_eq_ok.1 ht
  obtain ⟨branches, hbranches, ht⟩ := Result.bind_eq_ok.1 ht
  cases ht
  obtain ⟨cs, hcs, hcerase⟩ := erases_filledColumns hs.columns
    (fun r hr => h r (.inl (.inl hr))) s.distinct columns hcolumns
  obtain ⟨bs, hbs, hberase⟩ := erases_filledBranches hs.branches
    (fun r hr => h r (.inl (.inr hr))) branches hbranches
  have hrerase : (filledConditions Filter.rows.lead s.rowConditions).map Token.erase =
      rows.toList := (reads_filledConditions (by decide) (hs.conditions .rows) hrows).erase
  have hgerase : (filledConditions Filter.groups.lead s.groupConditions).map Token.erase =
      groups.toList := (reads_filledConditions (by decide) (hs.conditions .groups) hgroups).erase
  rw [Clause.limit_congr (g := Resolver.empty)] at hlimit
  refine ⟨cs ++ chars sources ++ chars joins ++
    filledConditions Filter.rows.lead s.rowConditions ++ chars groupings ++
    filledConditions Filter.groups.lead s.groupConditions ++ chars orderings ++ chars limit ++ bs,
    ?_, ?_⟩
  · simp only [filledBody, hcs, hsources, hjoins, hgroupings, horderings, hlimit, hbs]
    rfl
  · simp only [List.map_append, map_erase_chars, String.toList_append, hcerase, hrerase, hgerase,
      hberase]

theorem Supplied.erases_meant {s : Statement} (hs : s.Supplied)
    (h : ∀ r ∈ s.shown, Erases (f r) (fill r)) (variant : Variant) :
    Erases (s.text f variant) (s.meant fill variant) := by
  suffices Erases (s.text f variant) (s.filled fill variant) by
    intro t ht
    obtain ⟨ts, hts, herase⟩ := this t ht
    exact ⟨supply ts (s.boundIn .text), by simp only [meant, hts]; rfl, by
      rw [map_erase_supply, herase]⟩
  cases variant with
  | query => exact hs.erases_filledBody h
  | subselect =>
    intro t ht
    obtain ⟨body, hbody, ht⟩ := Result.bind_eq_ok.1 ht
    obtain ⟨label, hlabel, ht⟩ := Result.bind_eq_ok.1 ht
    cases ht
    obtain ⟨ts, hts, herase⟩ := hs.erases_filledBody h body hbody
    have hempty : s.label.display Resolver.empty = .ok label := by
      rcases hs.label with hnull | hplain
      · rwa [hnull] at hlabel ⊢
      · obtain ⟨text, -, hdisplay⟩ := hplain.display_eq
        rwa [hdisplay] at hlabel ⊢
    refine ⟨chars "(" ++ ts ++ chars (") as " ++ label), ?_, ?_⟩
    · simp only [filled, hts, hempty]
      rfl
    · simp only [List.map_append, map_erase_chars, herase, String.toList_append,
        List.append_assoc]

end Statement

end Texts

/-! ## What is open, and what is not -/

/-- Joined sources have their own placeholders alone. -/
theorem Clause.count_joins {joins : List Join} {t : String}
    (ht : Clause.fragments .null (joins.map Join.fragment) = .ok t) :
    t.toList.count '?' = (joins.flatMap fun j => j.source.raw).count '?' := by
  have hseparators : ∀ f ∈ joins.map Join.fragment, f.separator.Unmarked := by
    intro f hf
    obtain ⟨j, -, rfl⟩ := List.mem_map.1 hf
    refine Value.unmarked_text ?_
    cases j.kind <;> decide
  have hcount := Clause.count_fragments hseparators ht
  rwa [List.flatMap_map] at hcount

section Values

variable {fill : Ref → Filling} {compile : Ref → Except Failure Compiled}

namespace Statement

/-- No placeholder of a section of plain conditions is open. -/
theorem openMarks_filledConditions {lead : String} (hlead : Unmarked lead)
    {conditions : List Condition} (h : ∀ c ∈ conditions, c.predicate.Plain) :
    openMarks (filledConditions lead conditions) = 0 := by
  cases conditions with
  | nil => rfl
  | cons first rest =>
    exact (reads_filledConditions hlead h (Condition.fragments_eq lead first rest)).openMarks_eq

/-- The columns of a statement open what they have in raw text. -/
theorem openMarks_mapM_filled {columns : List Value} (hcolumns : ∀ v ∈ columns, v.IsColumn)
    (h : ∀ r ∈ columns.filterMap Value.subselect?, ∀ ts, fill r = .ok ts → openMarks ts = 0)
    {tss : List (List (Token Value))} (htss : columns.mapM (·.filled fill) = .ok tss) :
    openMarks tss.flatten = (columns.flatMap Value.raw).count '?' := by
  rw [Result.mapM_eq_ok] at htss
  have hall : ∀ v ∈ columns, ∀ ts, v.filled fill = .ok ts → openMarks ts = v.raw.count '?' := by
    intro v hv ts hts
    rcases hcolumns v hv with ⟨s, hs⟩ | ⟨r, hr⟩
    · obtain ⟨t, hcount, -, hfilled⟩ := Value.display_of_text? hs
      rw [hfilled] at hts
      cases hts
      rw [openMarks_chars, hcount]
    · have hopen := h r (List.mem_filterMap.2 ⟨v, hv, hr⟩) ts
      rw [(Value.subselect?_eq_some.1 hr).1] at hts ⊢
      exact hopen hts
  clear hcolumns h
  induction htss with
  | nil => rfl
  | cons hts _ ih =>
    rw [List.flatten_cons, openMarks_append, List.flatMap_cons, List.count_append,
      hall _ List.mem_cons_self _ hts, ih fun v hv => hall v (List.mem_cons_of_mem _ hv)]

theorem openMarks_filledBranches {branches : List Value}
    (hbranches : ∀ v ∈ branches, ∃ r, v = .statement r)
    (h : ∀ r, .statement r ∈ branches → ∀ ts, fill r = .ok ts → openMarks ts = 0)
    {ts : List (Token Value)} (hts : filledBranches fill branches = .ok ts) :
    openMarks ts = 0 := by
  obtain ⟨tss, htss, hts⟩ := Result.bind_eq_ok.1 hts
  cases hts
  rw [Result.mapM_eq_ok] at htss
  clear hts
  induction htss with
  | nil => rfl
  | @cons v us _ _ hus _ ih =>
    obtain ⟨r, rfl⟩ := hbranches v List.mem_cons_self
    have hclosed := h r List.mem_cons_self us hus
    have hrest := ih (fun w hw => hbranches w (List.mem_cons_of_mem _ hw))
      fun q hq => h q (List.mem_cons_of_mem _ hq)
    rw [List.map_cons, List.flatten_cons, openMarks_append, openMarks_append, hclosed, hrest,
      openMarks_chars_of_unmarked (by decide)]

/-- The filled clauses of a supplied statement are its columns, raw text of its sources, and what
has nothing open but in its branches. -/
theorem Supplied.filledBody_eq_ok {s : Statement} (hs : s.Supplied) {ts : List (Token Value)}
    (h : s.filledBody fill = .ok ts) :
    ∃ columns sources branches tail, ts = columns ++ sources ++ tail ∧
      filledColumns fill s.columns s.distinct = .ok columns ∧
      values sources = [] ∧
      openMarks sources =
        (s.sources.flatMap Value.raw ++ s.joins.flatMap fun j => j.source.raw).count '?' ∧
      filledBranches fill s.branches = .ok branches ∧
      openMarks tail = openMarks branches ∧
      values tail = s.rowConditions.flatMap (·.predicate.operands) ++
        s.groupConditions.flatMap (·.predicate.operands) ++ values branches := by
  obtain ⟨columns, hcolumns, h⟩ := Result.bind_eq_ok.1 h
  obtain ⟨sources, hsources, h⟩ := Result.bind_eq_ok.1 h
  obtain ⟨joins, hjoins, h⟩ := Result.bind_eq_ok.1 h
  obtain ⟨groupings, hgroupings, h⟩ := Result.bind_eq_ok.1 h
  obtain ⟨orderings, horderings, h⟩ := Result.bind_eq_ok.1 h
  obtain ⟨limit, hlimit, h⟩ := Result.bind_eq_ok.1 h
  obtain ⟨branches, hbranches, h⟩ := Result.bind_eq_ok.1 h
  cases h
  have hclosed : ∀ {t : String}, Unmarked t → openMarks (chars t : List (Token Value)) = 0 :=
    openMarks_chars_of_unmarked
  have hrows : openMarks (filledConditions Filter.rows.lead s.rowConditions) = 0 :=
    openMarks_filledConditions (by decide) (hs.conditions .rows)
  have hgroups : openMarks (filledConditions Filter.groups.lead s.groupConditions) = 0 :=
    openMarks_filledConditions (by decide) (hs.conditions .groups)
  refine ⟨columns, chars sources ++ chars joins, branches,
    filledConditions Filter.rows.lead s.rowConditions ++ chars groupings ++
      filledConditions Filter.groups.lead s.groupConditions ++ chars orderings ++ chars limit ++
      branches, by simp only [List.append_assoc], hcolumns, by simp, ?_, hbranches, ?_, ?_⟩
  · rw [openMarks_append, openMarks_chars, openMarks_chars,
      Clause.count_list (by decide) hsources, Clause.count_joins hjoins, List.count_append]
  · simp only [openMarks_append, hrows, hgroups,
      hclosed (Clause.unmarked_list (by decide) hs.groupings hgroupings),
      hclosed (Clause.unmarked_list (by decide) hs.orderings horderings),
      hclosed (Clause.unmarked_limit hlimit), Nat.zero_add]
  · simp only [values_append, values_chars, values_filledConditions, List.append_nil]

/-- The filled text of a statement is its filled clauses, between texts without placeholders. -/
theorem Supplied.filled_eq_ok {s : Statement} (hs : s.Supplied) {variant : Variant}
    {ts : List (Token Value)} (h : s.filled fill variant = .ok ts) :
    ∃ opening body closing, ts = chars opening ++ body ++ chars closing ∧ Unmarked opening ∧
      Unmarked closing ∧ s.filledBody fill = .ok body := by
  cases variant with
  | query => exact ⟨"", ts, "", by simp [chars], by decide, by decide, h⟩
  | subselect =>
    obtain ⟨body, hbody, h⟩ := Result.bind_eq_ok.1 h
    obtain ⟨label, hlabel, h⟩ := Result.bind_eq_ok.1 h
    cases h
    refine ⟨"(", body, ") as " ++ label, rfl, by decide, unmarked_append.2 ⟨by decide, ?_⟩, hbody⟩
    rcases hs.label with hnull | hplain
    · rw [hnull] at hlabel
      cases hlabel
      decide
    · obtain ⟨text, hunmarked, hdisplay⟩ := hplain.display_eq
      rw [hdisplay] at hlabel
      cases hlabel
      exact hunmarked

/-- Filled columns are the columns with commas between them, after words without placeholders. -/
theorem filledColumns_eq_ok {columns : List Value} {distinct : Bool} {ts : List (Token Value)}
    (h : filledColumns fill columns distinct = .ok ts) :
    ∃ lead tss, Unmarked lead ∧ columns.mapM (·.filled fill) = .ok tss ∧
      ts = chars lead ++ (chars ", ").intercalate tss := by
  cases columns with
  | nil =>
    cases h
    refine ⟨(if distinct then "SELECT distinct " else "SELECT ") ++ "*", [], ?_, rfl, by simp⟩
    cases distinct <;> decide
  | cons v rest =>
    obtain ⟨tss, htss, h⟩ := Result.bind_eq_ok.1 h
    cases h
    refine ⟨_, tss, ?_, htss, rfl⟩
    cases distinct <;> decide

/-- The filled text of a supplied statement has those placeholders open that it brings itself. -/
theorem Supplied.openMarks_filledBody {s : Statement} (hs : s.Supplied)
    (h : ∀ r ∈ s.shown, ∀ ts, fill r = .ok ts → openMarks ts = 0) {ts : List (Token Value)}
    (hts : s.filledBody fill = .ok ts) : openMarks ts = s.raw.count '?' := by
  obtain ⟨columns, sources, branches, tail, rfl, hcolumns, -, hsources, hbranches, htail, -⟩ :=
    hs.filledBody_eq_ok hts
  obtain ⟨lead, tss, hlead, htss, rfl⟩ := filledColumns_eq_ok hcolumns
  have hsum := openMarks_mapM_filled hs.columns
    (fun r hr => h r (mem_shown_of_mem_subselects hr)) htss
  have hclosed := openMarks_filledBranches hs.branches
    (fun r hr => h r (mem_shown_of_mem_branches hr)) hbranches
  rw [openMarks_append, openMarks_append, openMarks_append, openMarks_chars_of_unmarked hlead,
    openMarks_intercalate (by decide), hsum, hsources, htail, hclosed, Nat.zero_add, Nat.add_zero,
    ← List.count_append]
  rfl

/-- A supplied statement takes its directly bound values between texts without placeholders, and
all of them. -/
theorem Supplied.meant_eq_ok {s : Statement} (hs : s.Supplied) {variant : Variant}
    {ts : List (Token Value)} (h : s.meant fill variant = .ok ts) :
    ∃ opening body closing,
      ts = chars opening ++ supply body (s.boundIn .text) ++ chars closing ∧ Unmarked opening ∧
      Unmarked closing ∧ s.filledBody fill = .ok body := by
  obtain ⟨us, hus, h⟩ := Result.bind_eq_ok.1 h
  cases h
  obtain ⟨opening, body, closing, rfl, hopening, hclosing, hbody⟩ := hs.filled_eq_ok hus
  refine ⟨opening, body, closing, ?_, hopening, hclosing, hbody⟩
  have hstart := openMarks_chars_of_unmarked (α := Value) hopening
  have hend := openMarks_chars_of_unmarked (α := Value) hclosing
  rw [supply_append, supply_append, supply_of_openMarks_eq_zero hstart,
    supply_of_openMarks_eq_zero hend, hstart, List.drop_zero]

theorem Supplied.openMarks_meant {s : Statement} (hs : s.Supplied)
    (h : ∀ r ∈ s.shown, ∀ ts, fill r = .ok ts → openMarks ts = 0) {variant : Variant}
    {ts : List (Token Value)} (hts : s.meant fill variant = .ok ts) : openMarks ts = 0 := by
  obtain ⟨opening, body, closing, rfl, hopening, hclosing, hbody⟩ := hs.meant_eq_ok hts
  have hlength : (s.boundIn .text).length = openMarks body := by
    rw [hs.openMarks_filledBody h hbody, hs.supplied]
  rw [openMarks_append, openMarks_append, openMarks_supply hlength,
    openMarks_chars_of_unmarked hopening, openMarks_chars_of_unmarked hclosing]

end Statement

/-! ## The values of what is meant -/

/-- Some values are others, in the same order where `ordered` holds. -/
structure Agree (ordered : Prop) (xs ys : List Value) : Prop where
  perm : xs.Perm ys
  eq : ordered → xs = ys

namespace Agree

variable {P Q : Prop} {xs ys us vs : List Value}

theorem refl (P : Prop) (xs : List Value) : Agree P xs xs := ⟨.refl xs, fun _ => rfl⟩

theorem append (h : Agree P xs ys) (h' : Agree P us vs) : Agree P (xs ++ us) (ys ++ vs) :=
  ⟨h.perm.append h'.perm, fun hP => by rw [h.eq hP, h'.eq hP]⟩

theorem mono (h : Agree P xs ys) (hPQ : Q → P) : Agree Q xs ys := ⟨h.perm, fun hQ => h.eq (hPQ hQ)⟩

/-- Values in front may go behind others, in the same order where there are no such others. -/
theorem insert (h : Agree P xs (us ++ ys)) (hnone : P → vs = [] ∨ us = []) :
    Agree P (vs ++ xs) (us ++ (vs ++ ys)) := by
  refine ⟨((List.Perm.refl vs).append h.perm).trans (List.perm_append_comm_assoc vs us ys), ?_⟩
  intro hP
  rw [h.eq hP]
  rcases hnone hP with rfl | rfl <;> simp

end Agree

/-- Compiled statements that bind nothing bind nothing together. -/
theorem flatMap_params_eq_nil {β : Type} {items : List β} {f : β → Except Failure Compiled}
    (h : ∀ x ∈ items, ∀ c, f x = .ok c → c.params = []) {cs : List Compiled}
    (hcs : items.mapM f = .ok cs) : cs.flatMap (·.params) = [] := by
  rw [List.flatMap_eq_nil_iff]
  intro c hc
  obtain ⟨x, hx, hxc⟩ := exists_mem_of_forall₂ (Result.mapM_eq_ok.1 hcs) hc
  exact h x hx c hxc

namespace Statement

/-- The values of supplied columns are those of the subselects among them and then the supplied
ones: in the same order where the subselects that bind a value come first. -/
theorem agree_supply_columns {P : Prop} {columns : List Value}
    (hcolumns : ∀ v ∈ columns, v.IsColumn)
    (h : ∀ r ∈ columns.filterMap Value.subselect?, ∀ ts c, fill r = .ok ts → compile r = .ok c →
      openMarks ts = 0 ∧ Agree P (values ts) c.params)
    (hfirst : P → columns.Pairwise fun u v => '?' ∈ u.raw →
      ∀ q, v.subselect? = some q → ∀ c, compile q = .ok c → c.params = [])
    {tss : List (List (Token Value))} (htss : columns.mapM (·.filled fill) = .ok tss)
    {cs : List Compiled} (hcs : (columns.filterMap Value.subselect?).mapM compile = .ok cs)
    (vs : List Value) :
    Agree P (values (supply tss.flatten vs))
      (cs.flatMap (·.params) ++ vs.take (openMarks tss.flatten)) := by
  induction columns generalizing tss cs vs with
  | nil =>
    cases htss
    cases hcs
    simpa [supply] using Agree.refl P []
  | cons v rest ih =>
    rw [List.mapM_cons] at htss
    obtain ⟨us, hus, htss⟩ := Result.bind_eq_ok.1 htss
    obtain ⟨more, hmore, htss⟩ := Result.bind_eq_ok.1 htss
    cases htss
    have hrest : ∀ w ∈ rest, w.IsColumn := fun w hw => hcolumns w (List.mem_cons_of_mem v hw)
    have hfirst' := fun hP => (List.pairwise_cons.1 (hfirst hP)).2
    rw [List.flatten_cons, supply_append, values_append, openMarks_append]
    rcases hcolumns v List.mem_cons_self with ⟨s, hs⟩ | ⟨r, hr⟩
    · obtain ⟨t, hcount, -, hfilled⟩ := Value.display_of_text? hs
      have hnone : v.subselect? = none := by
        cases v <;> first | rfl | cases hs
      rw [hfilled] at hus
      cases hus
      rw [List.filterMap_cons_none hnone] at hcs h
      rw [openMarks_chars, hcount, values_supply_of_values_eq_nil (values_chars t),
        openMarks_chars, hcount, List.take_add]
      refine (ih hrest h hfirst' hmore hcs (vs.drop (v.raw.count '?'))).insert fun hP => ?_
      rcases Nat.eq_zero_or_pos (v.raw.count '?') with hzero | hpos
      · exact .inl (by rw [hzero, List.take_zero])
      · -- A placeholder of its own: no subselect that comes later binds a value.
        refine .inr (flatMap_params_eq_nil (fun q hq => ?_) hcs)
        obtain ⟨w, hw, hwq⟩ := List.mem_filterMap.1 hq
        exact (List.pairwise_cons.1 (hfirst hP)).1 w hw (List.count_pos_iff.1 hpos) q hwq
    · rw [List.filterMap_cons_some hr] at hcs h
      rw [List.mapM_cons] at hcs
      obtain ⟨c, hc, hcs⟩ := Result.bind_eq_ok.1 hcs
      obtain ⟨others, hothers, hcs⟩ := Result.bind_eq_ok.1 hcs
      cases hcs
      rw [(Value.subselect?_eq_some.1 hr).1] at hus
      obtain ⟨hclosed, hagree⟩ := h r List.mem_cons_self us c hus hc
      have hih := ih hrest (fun q hq => h q (List.mem_cons_of_mem _ hq)) hfirst' hmore hothers vs
      rw [supply_of_openMarks_eq_zero hclosed, hclosed, List.drop_zero, Nat.zero_add,
        List.flatMap_cons, List.append_assoc]
      exact hagree.append hih

theorem agree_filledBranches {P : Prop} {branches : List Value}
    (h : ∀ r, .statement r ∈ branches → ∀ ts c, fill r = .ok ts → compile r = .ok c →
      Agree P (values ts) c.params)
    {ts : List (Token Value)} (hts : filledBranches fill branches = .ok ts) {cs : List Compiled}
    (hcs : branches.mapM (fun v => v.branch "build" >>= compile) = .ok cs) :
    Agree P (values ts) (cs.flatMap (·.params)) := by
  obtain ⟨tss, htss, hts⟩ := Result.bind_eq_ok.1 hts
  cases hts
  rw [values_flatten, List.flatMap_map]
  simp only [values_append, values_chars, List.nil_append]
  rw [Result.mapM_eq_ok] at htss hcs
  clear hts
  induction htss generalizing cs with
  | nil =>
    cases hcs
    exact .refl P []
  | cons hus _ ih =>
    obtain ⟨c, others, hc, hothers, rfl⟩ := List.forall₂_cons_left_iff.1 hcs
    obtain ⟨r, hr, hc⟩ := Result.bind_eq_ok.1 hc
    rw [Value.branch_eq_ok.1 hr] at hus h
    have hagree := h r List.mem_cons_self _ c hus hc
    rw [List.flatMap_cons, List.flatMap_cons]
    exact hagree.append (ih (fun q hq => h q (List.mem_cons_of_mem _ hq)) hothers)

/-- The columns of a supplied statement take the directly bound values that they need, the sources
take the others, and the operands of the conditions and the values of the branches follow. -/
theorem Supplied.values_supply_filledBody {s : Statement} (hs : s.Supplied)
    (h : ∀ r ∈ s.shown, ∀ ts, fill r = .ok ts → openMarks ts = 0) {body : List (Token Value)}
    (hbody : s.filledBody fill = .ok body) :
    ∃ tss branches, s.columns.mapM (·.filled fill) = .ok tss ∧
      filledBranches fill s.branches = .ok branches ∧
      values (supply body (s.boundIn .text)) =
        values (supply tss.flatten (s.boundIn .text)) ++
          (s.boundIn .text).drop (openMarks tss.flatten) ++
          (s.rowConditions.flatMap (·.predicate.operands) ++
            s.groupConditions.flatMap (·.predicate.operands) ++ values branches) := by
  have hmarks := hs.openMarks_filledBody h hbody
  obtain ⟨columns, sources, branches, tail, rfl, hcolumns, hsvalues, -, hbranches, htail,
    htvalues⟩ := hs.filledBody_eq_ok hbody
  obtain ⟨lead, tss, hlead, htss, rfl⟩ := filledColumns_eq_ok hcolumns
  refine ⟨tss, branches, htss, hbranches, ?_⟩
  have hclosed : openMarks tail = 0 := by
    rw [htail]
    exact openMarks_filledBranches hs.branches
      (fun r hr => h r (mem_shown_of_mem_branches hr)) hbranches
  have hlclosed := openMarks_chars_of_unmarked (α := Value) hlead
  have hopen : openMarks (chars lead ++ (chars ", ").intercalate tss : List (Token Value)) =
      openMarks tss.flatten := by
    rw [openMarks_append, hlclosed, openMarks_intercalate (by decide), Nat.zero_add]
  have hvalues : values (supply (chars lead ++ (chars ", ").intercalate tss) (s.boundIn .text)) =
      values (supply tss.flatten (s.boundIn .text)) := by
    rw [supply_append, supply_of_openMarks_eq_zero hlclosed, hlclosed, List.drop_zero,
      values_append, values_chars, List.nil_append, values_supply_intercalate (by decide)]
  have hlength : (s.boundIn .text).length =
      openMarks (chars lead ++ (chars ", ").intercalate tss) + openMarks sources := by
    rw [hs.supplied, ← hmarks, openMarks_append, openMarks_append, hclosed, Nat.add_zero]
  rw [values_supply_of_length_eq hsvalues hclosed hlength, hvalues, hopen, htvalues]

/-- The values that a supplied statement means are those of the statement compiled. -/
theorem Supplied.agree_meant {P : Prop} {s : Statement} (hs : s.Supplied)
    (hoperands : ∀ filter,
      s.boundIn (.conditions filter) = (s.conditions filter).flatMap (·.predicate.operands))
    (h : ∀ r ∈ s.shown, ∀ ts, fill r = .ok ts → openMarks ts = 0)
    (h' : ∀ r ∈ s.shown, ∀ ts c, fill r = .ok ts → compile r = .ok c →
      Agree P (values ts) c.params)
    (hfirst : P → s.columns.Pairwise fun u v => '?' ∈ u.raw →
      ∀ q, v.subselect? = some q → ∀ c, compile q = .ok c → c.params = [])
    {variant : Variant} {ts : List (Token Value)} (hts : s.meant fill variant = .ok ts)
    {text : Except Failure String} {c : Compiled} (hc : s.compileFrom compile text = .ok c) :
    Agree P (values ts) c.params := by
  obtain ⟨cs, hcs, hc⟩ := Result.bind_eq_ok.1 hc
  obtain ⟨bs, hbs, hc⟩ := Result.bind_eq_ok.1 hc
  obtain ⟨sql, -, hc⟩ := Result.bind_eq_ok.1 hc
  cases hc
  obtain ⟨opening, body, closing, rfl, -, -, hbody⟩ := hs.meant_eq_ok hts
  obtain ⟨tss, branches, htss, hbranches, hvalues⟩ := hs.values_supply_filledBody h hbody
  have hcolumns : Agree P (values (supply tss.flatten (s.boundIn .text)))
      (cs.flatMap (·.params) ++ (s.boundIn .text).take (openMarks tss.flatten)) :=
    agree_supply_columns hs.columns
      (fun r hr ts c hts hc => ⟨h r (mem_shown_of_mem_subselects hr) ts hts,
        h' r (mem_shown_of_mem_subselects hr) ts c hts hc⟩) hfirst htss hcs _
  have hrest : Agree P (values branches) (bs.flatMap (·.params)) :=
    agree_filledBranches (fun r hr => h' r (mem_shown_of_mem_branches hr)) hbranches hbs
  have hrows : s.boundIn (.conditions .rows) =
      s.rowConditions.flatMap (·.predicate.operands) := hoperands .rows
  have hgroups : s.boundIn (.conditions .groups) =
      s.groupConditions.flatMap (·.predicate.operands) := hoperands .groups
  rw [values_append, values_append, values_chars, values_chars, List.nil_append, List.append_nil,
    hvalues, boundInOrder_eq, hrows, hgroups]
  have hall := (hcolumns.append (.refl P ((s.boundIn .text).drop (openMarks tss.flatten)))).append
    ((Agree.refl P (s.rowConditions.flatMap (·.predicate.operands) ++
      s.groupConditions.flatMap (·.predicate.operands))).append hrest)
  rw [List.append_assoc (cs.flatMap _), List.take_append_drop] at hall
  simpa only [List.append_assoc] using hall

end Statement

end Values

end BoundQuery
