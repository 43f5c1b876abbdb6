import BoundQuery.Proofs.Store.Occurrences

/-!
# Copies form the tree of what was copied

A statement unfolds to a tree: below it stand what its subselects unfold to, in the order of the
columns, and what its branches unfold to, in their order. A statement that is owned several times
has a node for each of them. Copying adds one statement for each node and logs it, what is below
first; and the new statements unfold to the same tree, in which none of them stands twice.

Only columns and branches count. A label that leads back to the statement does not keep it from
being unfolded or copied.

## Main definitions

* `Tree`: trees with two lists of trees below each node, for columns and for branches.
* `Store.Unfolds`: the trees that statements unfold to.
* `Store.Owns`: statements in one place own those in others.
* `Store.Duplicates`: trees of statements beside their copies, as these are added.

## Main statements

* `Store.Unfolds.eq_of_root_eq`: a statement unfolds to one tree only.
* `Store.clone_copies_tree`: copying adds and logs one copy for each node of the tree, and the
  copies form the same tree.
-/

namespace BoundQuery

/-- A tree in which the trees below a node are those of its columns and those of its branches. -/
inductive Tree (α : Type) where
  | node (root : α) (columns branches : List (Tree α))

namespace Tree

variable {α β : Type}

/-- The node that a tree goes out from. -/
def root : Tree α → α
  | node a _ _ => a

mutual

/-- The nodes of a tree: those below its columns, those below its branches, then its root. -/
def nodes : Tree α → List α
  | node a columns branches => nodesOfAll columns ++ nodesOfAll branches ++ [a]

def nodesOfAll : List (Tree α) → List α
  | [] => []
  | tree :: rest => nodes tree ++ nodesOfAll rest

end

mutual

/-- The tree of the same form with other nodes. -/
def map (f : α → β) : Tree α → Tree β
  | node a columns branches => node (f a) (mapAll f columns) (mapAll f branches)

def mapAll (f : α → β) : List (Tree α) → List (Tree β)
  | [] => []
  | tree :: rest => map f tree :: mapAll f rest

end

theorem nodesOfAll_append (trees more : List (Tree α)) :
    nodesOfAll (trees ++ more) = nodesOfAll trees ++ nodesOfAll more := by
  induction trees with
  | nil => rfl
  | cons tree rest ih => rw [List.cons_append, nodesOfAll, nodesOfAll, ih, List.append_assoc]

theorem nodesOfAll_singleton (tree : Tree α) : nodesOfAll [tree] = tree.nodes := by
  rw [nodesOfAll, nodesOfAll, List.append_nil]

theorem nodes_node (a : α) (columns branches : List (Tree α)) :
    (node a columns branches).nodes = nodesOfAll (columns ++ branches) ++ [a] := by
  rw [nodes, nodesOfAll_append]

theorem mapAll_eq_map (f : α → β) (trees : List (Tree α)) : mapAll f trees = trees.map (map f) := by
  induction trees with
  | nil => rfl
  | cons tree rest ih => rw [mapAll, ih, List.map_cons]

theorem root_map (f : α → β) (tree : Tree α) : (tree.map f).root = f tree.root := by
  cases tree
  rfl

theorem map_root_mapAll (f : α → β) (trees : List (Tree α)) :
    (mapAll f trees).map root = trees.map fun tree => f tree.root := by
  rw [mapAll_eq_map, List.map_map]
  exact List.map_congr_left fun tree _ => root_map f tree

end Tree

namespace Store

variable {store later : Store}

/-! ## What statements unfold to -/

/-- A tree is what the statement at its root unfolds to: below it stand the trees of its subselects
and those of its branches. -/
inductive Unfolds (store : Store) : Tree Ref → Prop where
  | node {r : Ref} {s : Statement} {columns branches : List (Tree Ref)}
      (hs : store.get? r = some s) (hcolumns : columns.map Tree.root = s.subselects)
      (hbranches : branches.map Tree.root = s.branches.filterMap Value.statement?)
      (hbelow : ∀ tree ∈ columns ++ branches, Unfolds store tree) :
      Unfolds store (.node r columns branches)

/-- What is added behind all statements leaves what those that are there unfold to. -/
theorem Unfolds.of_extends {tree : Tree Ref} (h : store.Unfolds tree)
    (hext : store.Extends later) : later.Unfolds tree := by
  induction h with
  | node hs hcolumns hbranches _ ih =>
    exact .node (hext.get?_of_eq_some hs) hcolumns hbranches ih

private theorem eq_of_map_root_eq {trees others : List (Tree Ref)}
    (h : ∀ tree ∈ trees, ∀ other, store.Unfolds other → other.root = tree.root → other = tree)
    (hothers : ∀ other ∈ others, store.Unfolds other)
    (hroots : others.map Tree.root = trees.map Tree.root) : others = trees := by
  induction trees generalizing others with
  | nil => exact List.map_eq_nil_iff.1 hroots
  | cons tree rest ih =>
    cases others with
    | nil => cases hroots
    | cons other more =>
      obtain ⟨hroot, hroots⟩ := List.cons.inj hroots
      rw [h tree List.mem_cons_self other (hothers other List.mem_cons_self) hroot,
        ih (fun t ht => h t (List.mem_cons_of_mem _ ht))
          (fun t ht => hothers t (List.mem_cons_of_mem _ ht)) hroots]

/-- A statement unfolds to one tree only. -/
theorem Unfolds.eq_of_root_eq {tree other : Tree Ref} (h : store.Unfolds tree)
    (hother : store.Unfolds other) (hroot : other.root = tree.root) : other = tree := by
  induction h generalizing other with
  | @node r s columns branches hs hcolumns hbranches hbelow ih =>
    cases hother with
    | @node q t columns' branches' ht hcolumns' hbranches' hbelow' =>
      obtain rfl : q = r := hroot
      obtain rfl : s = t := Option.some.inj (hs.symm.trans ht)
      have heq : columns' = columns :=
        eq_of_map_root_eq (fun tree htree _ ho hr => ih tree (List.mem_append_left _ htree) ho hr)
          (fun t ht => hbelow' t (List.mem_append_left _ ht)) (hcolumns'.trans hcolumns.symm)
      have heq' : branches' = branches :=
        eq_of_map_root_eq (fun tree htree _ ho hr => ih tree (List.mem_append_right _ htree) ho hr)
          (fun t ht => hbelow' t (List.mem_append_right _ ht)) (hbranches'.trans hbranches.symm)
      rw [heq, heq']

/-! ## Statements that own others -/

/-- The statement in one place owns the one in another. -/
def Owns (store : Store) (i j : Nat) : Prop :=
  ∃ s, store.statements[i]? = some s ∧ ∃ q ∈ s.owned, q.index = j

theorem Owns.shows {i j : Nat} (h : store.Owns i j) : store.Shows i j := by
  obtain ⟨s, hs, q, hq, hj⟩ := h
  exact ⟨s, hs, q, Statement.mem_shown_of_mem_owned hq, hj⟩

/-- Where no statement is a part of itself, none owns itself at any depth. -/
theorem Acyclic.not_owns (h : store.Acyclic) (i : Nat) : ¬ Relation.TransGen store.Owns i i :=
  fun hi => h i (Relation.TransGen.mono (fun _ _ => Owns.shows) i i hi)

open Classical in
/-- The number of statements that are owned from a place, at any depth. -/
noncomputable def below (store : Store) (i : Nat) : Nat :=
  ((Finset.range store.size).filter (Relation.TransGen store.Owns i)).card

theorem below_le_size (store : Store) (i : Nat) : store.below i ≤ store.size := by
  classical
  calc store.below i
    _ ≤ (Finset.range store.size).card := Finset.card_filter_le _ _
    _ = store.size := Finset.card_range store.size

/-- Fewer statements are owned from a place that is owned than from its owner. -/
theorem Closed.below_lt (hclosed : store.Closed)
    (hacyclic : ∀ i, ¬ Relation.TransGen store.Owns i i) {i j : Nat} (hij : store.Owns i j) :
    store.below j < store.below i := by
  classical
  have hj : j < store.size :=
    hclosed.lt_size_of_reaches hij.shows.lt_size (.single hij.shows)
  refine Finset.card_lt_card ⟨?_, ?_⟩
  · intro k hk
    obtain ⟨hsize, hjk⟩ := Finset.mem_filter.1 hk
    exact Finset.mem_filter.2 ⟨hsize, .head hij hjk⟩
  · intro hsubset
    have hmem := hsubset (Finset.mem_filter.2 ⟨Finset.mem_range.2 hj, .single hij⟩)
    exact hacyclic j (Finset.mem_filter.1 hmem).2

/-- A statement can be copied where no statement owns itself and all branches are statements. -/
theorem exists_clone (hclosed : store.Closed)
    (hacyclic : ∀ i, ¬ Relation.TransGen store.Owns i i)
    (hbranches : ∀ s ∈ store.statements, ∀ v ∈ s.branches, ∃ q, v = .statement q) {r : Ref}
    (hr : r.index < store.size) : ∃ twin, ((clone r).run store).result = .ok twin := by
  -- What is owned from a place is no more than all that is there, so copying goes deep enough.
  have hcopied := returns_cloneWithin_of_bounded
    (B := fun n r => store.below r.index < n ∧ r.index < store.size) ?_
    ⟨Nat.lt_succ_of_le (store.below_le_size r.index), hr⟩ (.refl store)
  · obtain ⟨twin, htwin, -⟩ := hcopied
    exact ⟨twin, (result_clone r store).trans htwin⟩
  · rintro n r ⟨hn, hr⟩
    obtain ⟨m, rfl⟩ : ∃ m, n = m + 1 := ⟨n - 1, by omega⟩
    obtain ⟨s, hs⟩ : ∃ s, store.get? r = some s := ⟨_, List.getElem?_eq_getElem hr⟩
    have hmem : s ∈ store.statements := List.mem_of_getElem? hs
    have howned : ∀ q ∈ s.owned, store.below q.index < m ∧ q.index < store.size := by
      intro q hq
      have hlt := hclosed.below_lt hacyclic ⟨s, hs, q, hq, rfl⟩
      exact ⟨by omega, hclosed s hmem q (Statement.mem_shown_of_mem_owned hq)⟩
    refine ⟨m, s, rfl, hs, fun q hq => howned q (List.mem_append_left _ hq), ?_⟩
    intro v hv
    obtain ⟨q, rfl⟩ := hbranches s hmem v hv
    exact ⟨q, rfl, howned q (Statement.mem_owned.2 (.inr hv))⟩

/-! ## Trees of statements beside their copies -/

/-- Some trees are what statements of a store unfold to, beside their copies. These are added and
logged in the order of the nodes, each in a place of its own, and unfold to the same trees. -/
structure Duplicates (store : Store) (trees : List (Tree (Ref × Ref))) (before : Store)
    (events : List Event) (after : Store) : Prop where
  unfolds : ∀ tree ∈ trees, store.Unfolds (tree.map Prod.fst)
  unfolds_copies : ∀ tree ∈ trees, after.Unfolds (tree.map Prod.snd)
  adds : store.Adds ((Tree.nodesOfAll trees).map Prod.fst) before events after
  places : (Tree.nodesOfAll trees).map (·.2.index) =
    List.range' before.size (Tree.nodesOfAll trees).length
  variants : ∀ pair ∈ Tree.nodesOfAll trees, pair.2.variant = pair.1.variant

theorem Duplicates.nil (before : Store) : store.Duplicates [] before [] before where
  unfolds _ h := by cases h
  unfolds_copies _ h := by cases h
  adds := .nil before
  places := rfl
  variants _ h := by cases h

theorem Duplicates.append {trees more : List (Tree (Ref × Ref))} {before middle after : Store}
    {events events' : List Event} (h : store.Duplicates trees before events middle)
    (h' : store.Duplicates more middle events' after) :
    store.Duplicates (trees ++ more) before (events ++ events') after := by
  constructor
  case unfolds => exact List.forall_mem_append.2 ⟨h.unfolds, h'.unfolds⟩
  case unfolds_copies =>
    exact List.forall_mem_append.2
      ⟨fun t ht => (h.unfolds_copies t ht).of_extends h'.adds.extends, h'.unfolds_copies⟩
  case adds =>
    rw [Tree.nodesOfAll_append, List.map_append]
    exact h.adds.append h'.adds
  case places =>
    have hsize := h.adds.size_eq
    rw [List.length_map] at hsize
    rw [Tree.nodesOfAll_append, List.map_append, h.places, h'.places, hsize, List.range'_append_1,
      List.length_append]
  case variants =>
    rw [Tree.nodesOfAll_append]
    exact List.forall_mem_append.2 ⟨h.variants, h'.variants⟩

/-- A copy is added to those of the trees of its columns and of its branches. -/
theorem Duplicates.copy {r : Ref} {s : Statement} (hs : store.get? r = some s)
    {trees more : List (Tree (Ref × Ref))} {columns branches : List Value}
    {before after : Store} {events : List Event}
    (h : store.Duplicates (trees ++ more) before events after)
    (hcolumns : trees.map (·.root.1) = s.subselects)
    (hcolumns' : trees.map (·.root.2) = columns.filterMap Value.subselect?)
    (hbranches : more.map (·.root.1) = s.branches.filterMap Value.statement?)
    (hbranches' : more.map (·.root.2) = branches.filterMap Value.statement?) :
    store.Duplicates [.node (r, ⟨r.variant, after.size⟩) trees more] before
      (events ++ [.cloned r.variant s.bound.length]) (after.add (s.copy columns branches)) := by
  have hadd := extends_add after (s.copy columns branches)
  have hnodes : Tree.nodesOfAll [.node (r, ⟨r.variant, after.size⟩) trees more] =
      Tree.nodesOfAll (trees ++ more) ++ [(r, ⟨r.variant, after.size⟩)] := by
    rw [Tree.nodesOfAll_singleton, Tree.nodes_node]
  have hbelow : ∀ {t : Store} {f : Ref × Ref → Ref},
      (∀ tree ∈ trees ++ more, t.Unfolds (tree.map f)) →
      ∀ tree ∈ Tree.mapAll f trees ++ Tree.mapAll f more, t.Unfolds tree := by
    intro t f ht tree htree
    rw [Tree.mapAll_eq_map, Tree.mapAll_eq_map, ← List.map_append] at htree
    obtain ⟨u, hu, rfl⟩ := List.mem_map.1 htree
    exact ht u hu
  constructor
  case unfolds =>
    refine List.forall_mem_singleton.2 (.node hs ?_ ?_ (hbelow h.unfolds))
    · rw [Tree.map_root_mapAll, hcolumns]
    · rw [Tree.map_root_mapAll, hbranches]
  case unfolds_copies =>
    have hget : (after.add (s.copy columns branches)).get? ⟨r.variant, after.size⟩ =
        some (s.copy columns branches) := by
      simp [get?, add, size]
    refine List.forall_mem_singleton.2 (.node hget ?_ ?_
      (hbelow fun tree htree => (h.unfolds_copies tree htree).of_extends hadd))
    · rw [Tree.map_root_mapAll, hcolumns']
      rfl
    · rw [Tree.map_root_mapAll, hbranches']
      rfl
  case adds =>
    rw [hnodes, List.map_append]
    exact h.adds.append (adds_copy hs columns branches after)
  case places =>
    have hsize := h.adds.size_eq
    rw [List.length_map] at hsize
    rw [hnodes, List.map_append, h.places, List.length_append, ← List.range'_append_1, ← hsize]
    rfl
  case variants =>
    rw [hnodes]
    exact List.forall_mem_append.2 ⟨h.variants, by simp⟩

/-- Where a statement is copied, it unfolds to a tree beside the one of its copies, and the nodes of
this tree are the occurrences. -/
theorem duplicates_clone (hclosed : store.Closed) {r twin : Ref} (hr : r.index < store.size)
    (h : ((clone r).run store).result = .ok twin) :
    ∃ tree : Tree (Ref × Ref), tree.root = (r, twin) ∧
      tree.nodes.map Prod.fst = store.occurrences r ∧
      store.Duplicates [tree] store ((clone r).run store).events ((clone r).run store).state := by
  rw [result_clone] at h
  rw [run_clone_of_ok h]
  -- What was copied so far and its copies are the roots of trees in a row.
  have hyields := yields_cloneWithin (T := fun n refs copies before events after =>
    ∃ trees : List (Tree (Ref × Ref)), trees.map (·.root.1) = refs ∧
      trees.map (·.root.2) = copies ∧
      (Tree.nodesOfAll trees).map Prod.fst = refs.flatMap (store.occurrencesWithin n) ∧
      store.Duplicates trees before events after) hclosed ?_ ?_ ?_ ?_ hr (.refl store) twin h
  · obtain ⟨-, trees, hroots, hroots', hnodes, htrees⟩ := hyields
    obtain ⟨tree, rfl, hroot⟩ := List.map_eq_singleton_iff.1 hroots
    rw [Tree.nodesOfAll_singleton, List.flatMap_singleton] at hnodes
    exact ⟨tree, Prod.ext hroot (List.singleton_inj.1 hroots'), hnodes, htrees⟩
  · intro n t
    exact ⟨[], rfl, rfl, rfl, .nil t⟩
  · rintro n rs rs' qs qs' t events u more v ⟨trees, rfl, rfl, hnodes, ht⟩
      ⟨trees', rfl, rfl, hnodes', hu⟩
    refine ⟨trees ++ trees', List.map_append, List.map_append, ?_, ht.append hu⟩
    rw [Tree.nodesOfAll_append, List.map_append, hnodes, hnodes', List.flatMap_append]
  · rintro n rs qs t events u ⟨trees, -, -, -, ht⟩
    exact ht.adds.extends
  · rintro n r s columns branches t events u more v hs ⟨trees, hcolumns, hcolumns', hnodes, ht⟩
      ⟨trees', hbranches, hbranches', hnodes', hu⟩
    refine ⟨_, rfl, rfl, ?_, (ht.append hu).copy hs hcolumns hcolumns' hbranches hbranches'⟩
    rw [Tree.nodesOfAll_singleton, Tree.nodes_node, Tree.nodesOfAll_append, List.map_append,
      List.map_append, hnodes, hnodes', List.flatMap_singleton, occurrencesWithin_succ hs,
      Statement.owned, List.flatMap_append]
    rfl

/-- A statement can be copied where no statement owns itself, at any depth, and all branches are
statements, whatever else stands in columns. It unfolds to one tree, for each node of which one copy
is added behind all statements and one event is logged, in the order of the nodes. A copy has the
shape of its statement, and the event has this shape and the number of values that the statement
binds. The copies form the same tree, and each of them is one node of it. -/
theorem clone_copies_tree {store : Store} (hclosed : store.Closed)
    (hacyclic : ∀ i, ¬ Relation.TransGen store.Owns i i)
    (hbranches : ∀ s ∈ store.statements, ∀ v ∈ s.branches, ∃ q, v = .statement q) {r : Ref}
    (hr : r.index < store.size) :
    ∃ copies events twin, (clone r).run store = ⟨copies, events, .ok twin⟩ ∧
      ∃ tree : Tree (Ref × Ref), tree.root = (r, twin) ∧
        store.Unfolds (tree.map Prod.fst) ∧
        (∀ other, store.Unfolds other → other.root = r → other = tree.map Prod.fst) ∧
        tree.nodes.map Prod.fst = store.occurrences r ∧
        copies.Unfolds (tree.map Prod.snd) ∧
        (∀ pair ∈ tree.nodes, pair.2.variant = pair.1.variant) ∧
        tree.nodes.map (·.2.index) = List.range' store.size tree.nodes.length ∧
        (∃ added, copies.statements = store.statements ++ added ∧
          List.Forall₂ (fun pair copy => ∃ s columns branches,
            store.get? pair.1 = some s ∧ copy = s.copy columns branches) tree.nodes added) ∧
        List.Forall₂ (fun pair event => ∃ s, store.get? pair.1 = some s ∧
          event = .cloned pair.1.variant s.bound.length ∧ event.level = .debug)
          tree.nodes events := by
  obtain ⟨twin, htwin⟩ := exists_clone hclosed hacyclic hbranches hr
  obtain ⟨tree, hroot, hnodes, hduplicates⟩ := duplicates_clone hclosed hr htwin
  obtain ⟨hunfolds, hcopies, ⟨⟨added, hadded, hadds⟩, hevents⟩, hplaces, hvariants⟩ := hduplicates
  simp only [Tree.nodesOfAll_singleton, List.forall₂_map_left_iff, List.forall_mem_singleton]
    at hunfolds hcopies hadds hevents hplaces hvariants
  refine ⟨_, _, twin, ?_, tree, hroot, hunfolds, ?_, hnodes, hcopies, hvariants, hplaces,
    ⟨added, hadded, hadds⟩, hevents.imp ?_⟩
  · rw [← htwin]
  · intro other hother hroot'
    refine hunfolds.eq_of_root_eq hother ?_
    rw [hroot', Tree.root_map, hroot]
  · rintro pair event ⟨s, hs, rfl⟩
    exact ⟨s, hs, rfl, rfl⟩

/-- A subselect with a condition, a query that has it as a column, and another one that has it as a
column twice, and the first query as a branch. -/
def shared : Store :=
  ⟨[{ Statement.blank (.text "s") .default with
      rowConditions := [⟨.and, .comparison .equal "a" (.int 1)⟩]
      bound := [.int 1]
      parts := [.conditions .rows] },
    { Statement.ofSource (.text "u") .default with
      columns := [.statement ⟨.subselect, 0⟩] },
    { Statement.ofSource (.text "t") .default with
      columns := [.statement ⟨.subselect, 0⟩, .text "b", .statement ⟨.subselect, 0⟩]
      rowConditions := [⟨.and, .between "c" (.int 2) (.int 3)⟩]
      branches := [.statement ⟨.query, 1⟩]
      bound := [.int 2, .int 3]
      parts := [.conditions .rows, .conditions .rows] }]⟩

theorem reachable_shared : shared.Reachable := by
  have h := Reachable.empty.perform (a := .subselect (.text "s") .default) (by decide)
  have h := h.perform (a := .call ⟨.subselect, 0⟩
    (.attach .rows .and (.predicate (.comparison .equal "a" (.int 1))))) (by decide)
  have h := h.perform (a := .query (.text "u") .default) (by decide)
  have h := h.perform
    (a := .call ⟨.query, 1⟩ (.columns [.statement ⟨.subselect, 0⟩] .null)) (by decide)
  have h := h.perform (a := .query (.text "t") .default) (by decide)
  have h := h.perform (a := .call ⟨.query, 2⟩ (.columns
    [.statement ⟨.subselect, 0⟩, .text "b", .statement ⟨.subselect, 0⟩] .null)) (by decide)
  have h := h.perform (a := .call ⟨.query, 2⟩
    (.attach .rows .and (.predicate (.between "c" (.int 2) (.int 3))))) (by decide)
  exact h.perform (a := .call ⟨.query, 2⟩ (.union (.statement ⟨.query, 1⟩))) (by decide)

theorem stacked_shared : shared.Stacked 0 := by
  rintro i - j ⟨s, hs, q, hq, rfl⟩
  refine ⟨Nat.zero_le _, ?_⟩
  match i with
  | 0 => cases hs; cases hq
  | 1 | 2 =>
    cases hs
    revert q
    decide
  | _ + 3 => cases hs

/-- The last query unfolds to five nodes, three of which are the subselect. -/
theorem clone_copies_tree_shared :
    shared.Closed ∧ (∀ i, ¬ Relation.TransGen shared.Owns i i) ∧
      (∀ s ∈ shared.statements, ∀ v ∈ s.branches, ∃ q, v = .statement q) ∧ 2 < shared.size ∧
      ∃ copies events, (clone ⟨.query, 2⟩).run shared = ⟨copies, events, .ok ⟨.query, 7⟩⟩ ∧
        ∃ tree : Tree (Ref × Ref), tree.root = (⟨.query, 2⟩, ⟨.query, 7⟩) ∧
          shared.Unfolds (tree.map Prod.fst) ∧ copies.Unfolds (tree.map Prod.snd) ∧
          tree.nodes.map Prod.fst = [⟨.subselect, 0⟩, ⟨.subselect, 0⟩, ⟨.subselect, 0⟩, ⟨.query, 1⟩,
            ⟨.query, 2⟩] ∧
          tree.nodes.map (·.2.index) = [3, 4, 5, 6, 7] ∧
          events.map Event.message = ["Cloned SubSelectBuilder with 1 parameter(s)",
            "Cloned SubSelectBuilder with 1 parameter(s)",
            "Cloned SubSelectBuilder with 1 parameter(s)",
            "Cloned SelectBuilder with 0 parameter(s)",
            "Cloned SelectBuilder with 2 parameter(s)"] := by
  have hclosed := reachable_shared.closed
  have hacyclic := stacked_shared.acyclic.not_owns
  have hbranches : ∀ s ∈ shared.statements, ∀ v ∈ s.branches, ∃ q, v = .statement q := by
    simp [shared, Statement.ofSource, Statement.blank]
  obtain ⟨copies, events, twin, hrun, tree, hroot, hunfolds, -, hnodes, hcopies, -, hplaces, -,
    hevents⟩ := clone_copies_tree hclosed hacyclic hbranches (r := ⟨.query, 2⟩) (by decide)
  cases hrun
  rw [hevents.length_eq] at hplaces
  exact ⟨hclosed, hacyclic, hbranches, by decide, _, _, rfl, tree, hroot, hunfolds, hcopies, hnodes,
    hplaces, by decide⟩

end Store

end BoundQuery
