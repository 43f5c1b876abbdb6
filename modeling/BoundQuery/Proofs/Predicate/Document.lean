import BoundQuery.Json.Reader
import BoundQuery.Proofs.Predicate.Described
import BoundQuery.Proofs.Value.Document

/-!
# Predicates through documents

A predicate whose operands come from documents is written as a document that describes it, unless
writing takes more levels than there are. What is read back is the predicate itself: a document that
could be written is never too deep to be read.

## Main definitions

* `Predicate.levels`: the levels that writing a predicate takes.
* `Predicate.Bounded`: whether all ranges in a predicate have their bounds.

## Main statements

* `Predicate.toDocument_eq`: a predicate is written within its levels, and not with fewer.
* `Predicate.describes_document`: the document of a predicate describes it.
* `Predicate.document_read_back`: a predicate comes back from its document.
* `Predicate.boxed_not_written`: a predicate that has no document.
-/

namespace BoundQuery.Predicate

mutual

/-- The levels that the operands of a predicate take, with one for each condition that they are
inside of. -/
def operandLevels : Predicate Json → Nat
  | comparison _ _ value => value.levels
  | between _ start stop => max start.levels stop.levels
  | isIn _ values => Json.levelsOfAll values
  | nullCheck _ _ => 0
  | not child => operandLevels child + 1
  | junction _ first rest => max (operandLevels first) (operandLevelsOfAll rest) + 1

def operandLevelsOfAll : List (Predicate Json) → Nat
  | [] => 0
  | q :: rest => max (operandLevels q) (operandLevelsOfAll rest)

end

/-- The levels that writing a predicate takes: those of its operands, or for one with conditions
those of their documents and one for itself. -/
def levels : Predicate Json → Nat
  | not child => child.document.levels + 1
  | junction _ first rest => Json.levelsOfAll (document first :: documents rest) + 1
  | q => q.operandLevels

mutual

/-- Whether all ranges in a predicate have their bounds; one without cannot be composed. -/
def Bounded : Predicate Value → Prop
  | not child => Bounded child
  | junction _ first rest => Bounded first ∧ AllBounded rest
  | p => p.HasBounds

def AllBounded : List (Predicate Value) → Prop
  | [] => True
  | p :: rest => Bounded p ∧ AllBounded rest

end

/-! ## Writing within levels -/

mutual

/-- The operands of a predicate have fewer levels than its document. -/
theorem operandLevels_lt (q : Predicate Json) : q.operandLevels < q.document.levels := by
  match q with
  | comparison _ _ _ | between _ _ _ | isIn _ _ | nullCheck _ _ =>
    simp only [operandLevels, document, Json.levels, Json.levelsOfMembers]
    omega
  | not child =>
    have hchild := operandLevels_lt child
    simp only [operandLevels, document, Json.levels, Json.levelsOfMembers]
    omega
  | junction joiner first rest =>
    have hfirst := operandLevels_lt first
    have hrest := operandLevelsOfAll_lt rest
    simp only [operandLevels, document, Json.levels, Json.levelsOfMembers, Json.levelsOfAll]
    omega

theorem operandLevelsOfAll_lt (qs : List (Predicate Json)) :
    operandLevelsOfAll qs < max 1 (Json.levelsOfAll (documents qs)) := by
  match qs with
  | [] => exact Nat.zero_lt_one
  | q :: rest =>
    have hfirst := operandLevels_lt q
    have hrest := operandLevelsOfAll_lt rest
    simp only [operandLevelsOfAll, documents, Json.levelsOfAll]
    omega

end

mutual

/-- Of the predicates one inside another each has a level in the document, and there is a tag. -/
theorem depth_lt (q : Predicate Json) : q.depth < q.document.levels := by
  match q with
  | comparison _ _ _ | between _ _ _ | isIn _ _ | nullCheck _ _ =>
    simp only [depth, document, Json.levels, Json.levelsOfMembers]
    omega
  | not child =>
    have hchild := depth_lt child
    simp only [depth, document, Json.levels, Json.levelsOfMembers]
    omega
  | junction joiner first rest =>
    have hfirst := depth_lt first
    have hrest := depthOfAll_le rest
    simp only [depth, document, Json.levels, Json.levelsOfMembers, Json.levelsOfAll]
    omega

theorem depthOfAll_le (qs : List (Predicate Json)) :
    depthOfAll qs ≤ Json.levelsOfAll (documents qs) := by
  match qs with
  | [] => exact Nat.le_refl 0
  | q :: rest =>
    have hfirst := depth_lt q
    have hrest := depthOfAll_le rest
    simp only [depthOfAll, documents, Json.levelsOfAll]
    omega

end

/-- What can be written is no deeper than the levels, and a leaf is one deep. -/
theorem depth_le_of_levels_le {q : Predicate Json} {n : Nat} (h : q.levels ≤ n) :
    q.depth ≤ max 1 n := by
  cases q with
  | comparison | between | isIn | nullCheck => exact Nat.le_max_left 1 n
  | not child =>
    have hchild := depth_lt child
    simp only [levels] at h
    simp only [depth]
    omega
  | junction joiner first rest =>
    have hfirst := depth_lt first
    have hrest := depthOfAll_le rest
    simp only [levels, Json.levelsOfAll] at h
    simp only [depth]
    omega

theorem levelsOfAll_documents_le_iff {qs : List (Predicate Json)} {n : Nat} :
    Json.levelsOfAll (documents qs) ≤ n ↔ ∀ q ∈ qs, q.document.levels ≤ n := by
  induction qs with
  | nil => simp [documents, Json.levelsOfAll]
  | cons q rest ih => simp [documents, Json.levelsOfAll, Nat.max_le, ih]

/-- The levels of a predicate are enough for its operands and for the documents of its conditions,
and no fewer are. -/
theorem levels_le_iff {q : Predicate Json} {n : Nat} :
    q.levels ≤ n ↔ q.operandLevels ≤ q.inside n ∧
      ∀ child ∈ q.children, child.document.levels ≤ q.inside n := by
  cases q with
  | comparison | between | isIn | nullCheck => simp [levels, inside, children]
  | not child =>
    have hchild := operandLevels_lt child
    simp only [levels, inside, children, operandLevels, List.isEmpty_cons, Bool.false_eq_true,
      if_false, List.forall_mem_singleton]
    omega
  | junction joiner first rest =>
    have hfirst := operandLevels_lt first
    have hrest := operandLevelsOfAll_lt rest
    have hfits : (∀ child ∈ first :: rest, child.document.levels ≤ n - 1) ↔
        Json.levelsOfAll (document first :: documents rest) ≤ n - 1 :=
      levelsOfAll_documents_le_iff.symm
    simp only [levels, inside, children, operandLevels, List.isEmpty_cons, Bool.false_eq_true,
      if_false, hfits, Json.levelsOfAll]
    omega

mutual

/-- The operands of a predicate are written with as many levels as they take, and with fewer one is
too deep. -/
theorem operandsWithin_eq {p : Predicate Value}
    (hp : ∀ v ∈ p.operands, v.IsJson Value.Finite) (n : Nat) :
    Value.operandsWithin n p =
      Value.writtenWithin n (p.map Value.document).operandLevels (p.map Value.document) := by
  match n, p with
  | n, comparison op expr v =>
    have hv : v.IsJson Value.Finite := hp v (List.mem_singleton_self v)
    rw [Value.operandsWithin, hv.documentWithin_eq, Value.map_writtenWithin]
    rfl
  | n, between expr start stop =>
    have hstart : start.IsJson Value.Finite := hp start List.mem_cons_self
    have hstop : stop.IsJson Value.Finite := hp stop (List.mem_cons_of_mem _ List.mem_cons_self)
    rw [Value.operandsWithin, hstart.documentWithin_eq, hstop.documentWithin_eq]
    exact Value.bind_writtenWithin n (between expr)
  | n, isIn expr values =>
    have hvalues : Value.AllJson Value.Finite values := Value.allJson_iff.2 hp
    rw [Value.operandsWithin, hvalues.documentsWithin_eq, Value.map_writtenWithin,
      Value.documents_eq_map]
    rfl
  | n, nullCheck expr negated =>
    simp [Value.operandsWithin, Value.writtenWithin, operandLevels, map]
  | 0, not child => simp [Value.operandsWithin, Value.writtenWithin, operandLevels, map]
  | n + 1, not child =>
    rw [Value.operandsWithin, operandsWithin_eq (p := child) hp n, Value.map_writtenWithin, map,
      operandLevels, Value.writtenWithin_succ]
  | 0, junction joiner first rest =>
    simp [Value.operandsWithin, Value.writtenWithin, operandLevels, map]
  | n + 1, junction joiner first rest =>
    have hfirst : ∀ v ∈ first.operands, v.IsJson Value.Finite :=
      fun v hv => hp v (List.mem_append_left _ hv)
    have hrest : ∀ v ∈ operandsOfAll rest, v.IsJson Value.Finite :=
      fun v hv => hp v (List.mem_append_right _ hv)
    rw [Value.operandsWithin, operandsWithin_eq hfirst n, operandsOfAllWithin_eq hrest n, map,
      operandLevels, Value.writtenWithin_succ]
    exact Value.bind_writtenWithin n (junction joiner)

theorem operandsOfAllWithin_eq {ps : List (Predicate Value)}
    (hps : ∀ v ∈ operandsOfAll ps, v.IsJson Value.Finite) (n : Nat) :
    Value.operandsOfAllWithin n ps =
      Value.writtenWithin n (operandLevelsOfAll (mapAll Value.document ps))
        (mapAll Value.document ps) := by
  match ps with
  | [] => simp [Value.operandsOfAllWithin, Value.writtenWithin, operandLevelsOfAll, mapAll]
  | p :: rest =>
    have hp : ∀ v ∈ p.operands, v.IsJson Value.Finite :=
      fun v hv => hps v (List.mem_append_left _ hv)
    have hrest : ∀ v ∈ operandsOfAll rest, v.IsJson Value.Finite :=
      fun v hv => hps v (List.mem_append_right _ hv)
    rw [Value.operandsOfAllWithin, operandsWithin_eq hp n, operandsOfAllWithin_eq hrest n, mapAll,
      operandLevelsOfAll]
    exact Value.bind_writtenWithin n List.cons

end

theorem inside_map {α β : Type} (f : α → β) (n : Nat) (p : Predicate α) :
    (p.map f).inside n = p.inside n := by
  cases p <;> rfl

/-- A predicate is written with as many levels as that takes, and with fewer it is too deep. -/
theorem toDocument_eq {p : Predicate Value} (hp : ∀ v ∈ p.operands, v.IsJson Value.Finite) :
    p.toDocument =
      Value.writtenWithin Value.maxLevels (p.map Value.document).levels
        (p.map Value.document).document := by
  rw [toDocument, Value.documentWithin, operandsWithin_eq hp, ← inside_map Value.document]
  generalize p.map Value.document = q
  have hfits : (q.children.all fun child => child.document.levels ≤ q.inside Value.maxLevels) ↔
      ∀ child ∈ q.children, child.document.levels ≤ q.inside Value.maxLevels := by
    simp
  rw [Value.writtenWithin, Value.writtenWithin]
  by_cases hoperands : q.operandLevels ≤ q.inside Value.maxLevels
  · simp only [levels_le_iff, hoperands, true_and, if_true, ← hfits]
    rfl
  · simp only [levels_le_iff, hoperands, false_and, if_false]
    rfl

/-! ## The document describes the predicate -/

section

variable (kind : Kind) {members : List (String × Json)}

theorem nodup_names : ("kind" :: kind.fields).Nodup := by
  cases kind <;> decide

/-- The entries of an object whose members are the tag and the fields of a shape. -/
theorem ofMembers_eq (hnames : members.map Prod.fst = kind.fields) :
    Value.ofMembers (("kind", .text kind.tag) :: members) =
      (("kind", .text kind.tag) :: members).map fun m => (.text m.1, Value.ofDocument m.2) := by
  apply Value.ofMembers_eq_map
  rw [List.map_cons, hnames]
  exact nodup_names kind

theorem record_ofMembers (hnames : members.map Prod.fst = kind.fields) :
    Record kind (Value.ofMembers (("kind", .text kind.tag) :: members)) := by
  rw [ofMembers_eq kind hnames]
  constructor
  · rw [Value.field?_map]
    rfl
  · intro e he
    obtain ⟨m, hm, rfl⟩ := List.mem_map.1 he
    refine ⟨m.1, ?_, rfl⟩
    rw [← hnames]
    exact List.mem_map_of_mem hm

theorem field?_ofMembers (hnames : members.map Prod.fst = kind.fields) {name : String} {v : Value}
    (h : ((("kind", .text kind.tag) :: members).lookup name).map Value.ofDocument = some v) :
    Value.field? name (Value.ofMembers (("kind", .text kind.tag) :: members)) = some v := by
  rw [ofMembers_eq kind hnames, Value.field?_map, h]

end

mutual

theorem describes_document (q : Predicate Json) (hq : (q.map Value.ofDocument).Bounded) :
    Describes (Value.ofDocument q.document) (.ok (q.map Value.ofDocument)) := by
  match q with
  | comparison op expr value =>
    exact .comparison (record_ofMembers .comparison rfl) (field?_ofMembers .comparison rfl rfl)
      (field?_ofMembers .comparison rfl rfl) (field?_ofMembers .comparison rfl rfl)
  | between expr start stop =>
    obtain ⟨start_ne, stop_ne⟩ := hq
    rw [map, ← Compose.between_text start_ne stop_ne]
    exact .between (record_ofMembers .between rfl) (field?_ofMembers .between rfl rfl)
      (field?_ofMembers .between rfl rfl) start_ne (field?_ofMembers .between rfl rfl) stop_ne
  | isIn expr values =>
    exact .isIn (record_ofMembers .isIn rfl) (field?_ofMembers .isIn rfl rfl)
      (.inr ⟨_, field?_ofMembers .isIn rfl rfl, congrArg _ (Value.ofDocuments_eq_map values)⟩)
  | nullCheck expr negated =>
    exact .nullCheck (record_ofMembers .nullCheck rfl) (field?_ofMembers .nullCheck rfl rfl)
      (.inr ⟨_, field?_ofMembers .nullCheck rfl rfl, .bool negated⟩)
  | not child =>
    rw [map, ← Compose.negate_predicate]
    exact .not (record_ofMembers .not rfl) (field?_ofMembers .not rfl rfl)
      (describes_document child hq)
  | junction joiner first rest =>
    rw [map, ← Compose.join_predicates]
    refine .junction _ (record_ofMembers .junction rfl) (field?_ofMembers .junction rfl rfl)
      (field?_ofMembers .junction rfl rfl) (List.cons_ne_nil _ _) ?_
    exact .cons (describes_document first hq.1) (describesAll_documents rest hq.2)

theorem describesAll_documents (qs : List (Predicate Json))
    (hqs : AllBounded (mapAll Value.ofDocument qs)) :
    DescribesAll (Value.ofDocuments (documents qs)) (mapAll Value.ofDocument qs) := by
  match qs with
  | [] => exact .nil
  | q :: rest => exact .cons (describes_document q hqs.1) (describesAll_documents rest hqs.2)

end

/-! ## There and back -/

/-- A predicate is what its document reads as, where it is not too deep. -/
theorem ofValue?_document {p : Predicate Value} (hp : ∀ v ∈ p.operands, v.IsJson Value.Finite)
    (hbounds : p.Bounded) (hdepth : p.depth ≤ maxDepth) :
    ofValue? (Value.ofDocument (p.map Value.document).document) = .ok p := by
  have hmap : (p.map Value.document).map Value.ofDocument = p :=
    map_map_eq_self fun v hv => (hp v hv).ofDocument_document
  have hdescribes := describes_document (p.map Value.document) (by rwa [hmap])
  rw [hmap] at hdescribes
  obtain ⟨q, hq, hread⟩ := ofValueWithin_of_describes hdescribes
  cases hq
  exact Decoded.toExcept_eq_ok_iff.2 (hread maxDepth hdepth)

theorem same_self {p : Predicate Value} (hp : ∀ v ∈ p.operands, v.IsJson Value.Finite) :
    p.same p = true :=
  same_iff.2 ⟨rfl, (Value.allJson_iff.2 hp).sameAll_self⟩

/-- A predicate is written where that takes no more levels than there are. Whatever is written comes
back equal to what it was and with the same document, and what is not written is too deep. -/
theorem document_read_back {p : Predicate Value} (hp : ∀ v ∈ p.operands, v.IsJson Value.Finite)
    (hbounds : p.Bounded) {decode : String → Option Json}
    (hdecode : ∀ d, p.toDocument = .ok d → decode d.write = some d) :
    ((p.map Value.document).levels ≤ Value.maxLevels → ∃ d, p.toDocument = .ok d) ∧
    (∀ d, p.toDocument = .ok d → ∃ read, decode d.write = some read ∧
      ∃ q, ofValue? (Value.ofDocument read) = .ok q ∧ q = p ∧ q.same p = true ∧
        q.toDocument = .ok d) ∧
    ∀ failure, p.toDocument = .error failure → failure = .tooDeep := by
  have hwritten := toDocument_eq hp
  rw [Value.writtenWithin] at hwritten
  by_cases hlevels : (p.map Value.document).levels ≤ Value.maxLevels
  · rw [if_pos hlevels] at hwritten
    have hdepth : p.depth ≤ maxDepth := by
      rw [← depth_map Value.document]
      exact depth_le_of_levels_le hlevels
    refine ⟨fun _ => ⟨_, hwritten⟩, ?_, ?_⟩
    · intro d hd
      refine ⟨d, hdecode d hd, p, ?_, rfl, same_self hp, hd⟩
      cases hwritten.symm.trans hd
      exact ofValue?_document hp hbounds hdepth
    · intro failure hfailure
      cases hwritten.symm.trans hfailure
  · rw [if_neg hlevels] at hwritten
    refine ⟨fun h => absurd h hlevels, ?_, ?_⟩
    · intro d hd
      cases hwritten.symm.trans hd
    · intro failure hfailure
      cases hwritten.symm.trans hfailure
      rfl

/-- A comparison with a mapping that looks like a predicate, under a negation. -/
def disguised : Predicate Value :=
  .not (.comparison .equal "a" (.mapping [(.text "expr", .text "b"),
    (.text "kind", .text "null_check"), (.text "seen", .list [.null, .int (-7)])]))

theorem write_disguised :
    (disguised.map Value.document).document.write =
      "\x7b\"kind\":\"not\",\"child\":" ++
        "\x7b\"kind\":\"comparison\",\"op\":\"=\",\"expr\":\"a\",\"value\":" ++
          "\x7b\"expr\":\"b\",\"kind\":\"null_check\",\"seen\":[null,-7]\x7d\x7d\x7d" := by
  decide +kernel

theorem read?_write_disguised :
    Json.read? (disguised.map Value.document).document.write =
      some (disguised.map Value.document).document := by
  -- the characters have to stand there as a list before the reader can be run over them
  simp only [write_disguised, Json.read?, String.toList_append, String.reduceToList,
    List.cons_append, List.nil_append, List.length_cons, List.length_nil]
  rfl

theorem disguised_read_back :
    (∀ v ∈ disguised.operands, v.IsJson Value.Finite) ∧ disguised.Bounded ∧
      (disguised.map Value.document).levels ≤ Value.maxLevels ∧
      (∀ d, disguised.toDocument = .ok d → Json.read? d.write = some d) ∧
      ∃ d, disguised.toDocument = .ok d ∧ ∃ read, Json.read? d.write = some read ∧
        ∃ q, ofValue? (Value.ofDocument read) = .ok q ∧ q = disguised := by
  have hp : ∀ v ∈ disguised.operands, v.IsJson Value.Finite := by
    simp [disguised, operands, Value.IsJson, Value.EntriesJson, Value.AllJson]
  have hbounds : disguised.Bounded := trivial
  have hlevels : (disguised.map Value.document).levels ≤ Value.maxLevels := by decide
  have hdecode : ∀ d, disguised.toDocument = .ok d → Json.read? d.write = some d := by
    intro d hd
    have hdocument : disguised.toDocument = .ok (disguised.map Value.document).document := by
      rw [toDocument_eq hp, Value.writtenWithin, if_pos hlevels]
    cases hdocument.symm.trans hd
    exact read?_write_disguised
  obtain ⟨hwritten, hback, -⟩ := document_read_back hp hbounds hdecode
  obtain ⟨d, hd⟩ := hwritten hlevels
  obtain ⟨read, hread, q, hq, heq, -⟩ := hback d hd
  exact ⟨hp, hbounds, hlevels, hdecode, d, hd, read, hread, q, hq, heq⟩

/-- A value inside so many lists. -/
def boxed : Nat → Value
  | 0 => .int 1
  | n + 1 => .list [boxed n]

theorem levels_document_boxed (n : Nat) : (boxed n).document.levels = n + 1 := by
  induction n with
  | zero => rfl
  | succ n ih =>
    simp [boxed, Value.document, Value.documents, Json.levels, Json.levelsOfAll, ih]

theorem isJson_boxed {floats : Float → Prop} (n : Nat) : (boxed n).IsJson floats := by
  induction n with
  | zero => trivial
  | succ n ih => exact ⟨ih, trivial⟩

/-- Not every predicate with operands from documents has a document. -/
theorem boxed_not_written :
    (∀ v ∈ (comparison .equal "a" (boxed 300)).operands, v.IsJson Value.Finite) ∧
      (comparison .equal "a" (boxed 300)).Bounded ∧
      ¬ ∃ d, (comparison .equal "a" (boxed 300)).toDocument = .ok d := by
  have hp : ∀ v ∈ (comparison .equal "a" (boxed 300)).operands, v.IsJson Value.Finite := by
    intro v hv
    rw [List.mem_singleton.1 hv]
    exact isJson_boxed 300
  refine ⟨hp, trivial, ?_⟩
  rintro ⟨d, hd⟩
  have hlevels : ((comparison .equal "a" (boxed 300)).map Value.document).levels = 301 :=
    levels_document_boxed 300
  rw [toDocument_eq hp, Value.writtenWithin, hlevels, if_neg (by decide)] at hd
  cases hd

end BoundQuery.Predicate
