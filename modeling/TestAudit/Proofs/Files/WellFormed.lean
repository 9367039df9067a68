import Mathlib.Data.List.Induction
import TestAudit.Proofs.Files.Tree
import TestAudit.Proofs.Lookup

namespace TestAudit.Tree

/-!
# Well-formed trees

In a well-formed tree every node stands in a directory that can be entered, once, under a name
that can be followed: what is below a closed directory is not seen. So each node is reached by
the names of its route, and what is listed below a route is what stands there.
-/

/-- A name that leads from a directory to an entry of that directory. -/
def IsEntryName (name : Text) : Prop :=
  name ≠ Path.above ∧ '\x00' ∉ name ∧ Path.fits name = true

instance (name : Text) : Decidable (IsEntryName name) :=
  instDecidableAnd

/-- The nodes of a tree have routes of their own, and each stands in a directory. -/
structure WellFormed (tree : Tree) : Prop where
  different : (tree.nodes.map Prod.fst).Nodup
  notRoot : ∀ entry ∈ tree.nodes, entry.1 ≠ []
  inDirectory : ∀ entry ∈ tree.nodes, tree.node? entry.1.dropLast = some .directory
  named : ∀ entry ∈ tree.nodes, ∀ name ∈ entry.1, IsEntryName name

variable {tree : Tree} {route names : Route} {name : Text} {node : Node}

/-! ## Nodes at routes -/

theorem node?_root
    (tree : Tree) :
    tree.node? [] = some .directory :=
  if_pos rfl

theorem mem_nodes_of_node?
    (notRoot : route ≠ [])
    (isNode : tree.node? route = some node) :
    (route, node) ∈ tree.nodes := by
  rw [node?, if_neg notRoot] at isNode
  exact Lookup.mem_of_lookup isNode

/-- A path goes on by names that are followed from the place that it leads to. -/
theorem locate_descend_of_follow
    {path : Path}
    {target : Route}
    (located : tree.locate path = .ok route)
    (canFollow : ∀ name ∈ names, '\x00' ∉ name)
    (follows : tree.follow route names = .ok target) :
    tree.locate (path.descend names) = .ok target := by
  obtain ⟨canLead, leads⟩ := locate_eq_ok_iff.mp located
  refine locate_eq_ok_iff.mpr ⟨?_, ?_⟩
  · refine List.all_eq_true.mpr (List.forall_mem_append.mpr ⟨?_, fun name below => ?_⟩)
    · exact List.all_eq_true.mp canLead
    · simpa using canFollow name below
  · change tree.follow (tree.start path) (path.names ++ names) = _
    rw [follow_append, leads]
    exact follows

/-- An entry of a directory is followed by its name. -/
theorem advance_of_isEntryName
    (isDirectory : tree.node? route = some .directory)
    (isEntryName : IsEntryName name)
    (isPresent : tree.node? (route ++ [name]) ≠ none) :
    tree.advance route name = .ok (route ++ [name]) := by
  have leadsDown : Path.follow route name = route ++ [name] := if_neg isEntryName.1
  exact advance_eq_ok_iff.mpr ⟨isDirectory, isEntryName.2.2, leadsDown.symm, isPresent⟩

namespace WellFormed

theorem node?_eq_some_iff
    (wellFormed : tree.WellFormed)
    (notRoot : route ≠ []) :
    tree.node? route = some node ↔ (route, node) ∈ tree.nodes := by
  rw [node?, if_neg notRoot]
  exact Lookup.lookup_eq_some_iff_mem wellFormed.different

/-- It does not matter in which order the nodes of a tree are listed. -/
theorem node?_eq_of_perm
    (wellFormed : tree.WellFormed)
    {other : Tree}
    (permuted : other.nodes.Perm tree.nodes)
    (route : Route) :
    other.node? route = tree.node? route := by
  rw [node?, node?, Lookup.lookup_eq_of_perm wellFormed.different permuted]

theorem isEntryName
    (wellFormed : tree.WellFormed)
    (isNode : tree.node? route = some node)
    (member : name ∈ route) :
    IsEntryName name := by
  have notRoot : route ≠ [] := List.ne_nil_of_mem member
  exact wellFormed.named (route, node) (mem_nodes_of_node? notRoot isNode) name member

/-- Above every node there are directories only. -/
theorem inside
    (wellFormed : tree.WellFormed)
    (isNode : tree.node? route = some node) :
    tree.Inside route := by
  induction route using List.reverseRecOn generalizing node with
  | nil => exact inside_nil
  | append_singleton front last inductionHypothesis =>
      have notRoot := List.append_ne_nil_of_right_ne_nil front (List.cons_ne_nil last [])
      have isEntry := mem_nodes_of_node? notRoot isNode
      have isDirectory := wellFormed.inDirectory _ isEntry
      rw [List.dropLast_concat] at isDirectory
      intro above isAbove other
      rcases List.prefix_concat_iff.mp isAbove with isAll | isFront
      · exact (other isAll).elim
      · by_cases same : above = front
        · rw [same]
          exact isDirectory
        · exact inductionHypothesis isDirectory above isFront same

/-- The names of a node lead to it from every directory on its route. -/
theorem follow_eq
    (wellFormed : tree.WellFormed)
    (isNode : tree.node? (route ++ names) = some node) :
    tree.follow route names = .ok (route ++ names) := by
  induction names generalizing route with
  | nil => rw [List.append_nil, follow]
  | cons name others inductionHypothesis =>
      have inside := wellFormed.inside isNode
      have isDirectory : tree.node? route = some .directory := by
        refine inside route (List.prefix_append _ _) fun same => ?_
        exact List.cons_ne_nil _ _ (List.append_right_eq_self.mp same.symm)
      have isEntryName : IsEntryName name := wellFormed.isEntryName isNode (by simp)
      rw [List.append_cons] at isNode inside ⊢
      have isPresent : tree.node? (route ++ [name]) ≠ none := by
        by_cases same : route ++ [name] = route ++ [name] ++ others
        · rw [same, isNode]
          exact Option.some_ne_none _
        · rw [inside _ (List.prefix_append _ _) same]
          exact Option.some_ne_none _
      exact follow_cons_eq_ok_iff.mpr
        ⟨_, advance_of_isEntryName isDirectory isEntryName isPresent, inductionHypothesis isNode⟩

/-- A path goes on to the nodes below the place that it leads to. -/
theorem locate_descend
    (wellFormed : tree.WellFormed)
    {path : Path}
    (located : tree.locate path = .ok route)
    (isNode : tree.node? (route ++ names) = some node) :
    tree.locate (path.descend names) = .ok (route ++ names) := by
  refine locate_descend_of_follow located (fun name below => ?_) (wellFormed.follow_eq isNode)
  exact (wellFormed.isEntryName isNode (List.mem_append_right route below)).2.1

end WellFormed

/-! ## Nodes below a route -/

theorem mem_below_iff :
    (names, node) ∈ tree.below route ↔ names ≠ [] ∧ (route ++ names, node) ∈ tree.nodes := by
  rw [below, List.mem_filterMap]
  constructor
  · rintro ⟨⟨full, found⟩, member, isBelow⟩
    dsimp only at isBelow
    split at isBelow
    next name others isPrefix =>
      cases isBelow
      have isFull := List.isPrefixOf?_eq_some_iff_append_eq.mp isPrefix
      exact ⟨List.cons_ne_nil _ _, isFull ▸ member⟩
    next => cases isBelow
  · rintro ⟨notEmpty, member⟩
    refine ⟨_, member, ?_⟩
    have isPrefix : route.isPrefixOf? (route ++ names) = some names :=
      List.isPrefixOf?_eq_some_iff_append_eq.mpr rfl
    obtain ⟨name, others, rfl⟩ := List.exists_cons_of_ne_nil notEmpty
    simp only [isPrefix]

theorem mem_children_iff :
    (name, node) ∈ tree.children route ↔ (route ++ [name], node) ∈ tree.nodes := by
  rw [children, List.mem_filterMap]
  constructor
  · rintro ⟨entry, member, isChild⟩
    split at isChild
    next =>
      cases isChild
      exact (mem_below_iff.mp member).2
    next => cases isChild
  · intro member
    exact ⟨([name], node), mem_below_iff.mpr ⟨List.cons_ne_nil _ _, member⟩, rfl⟩

/-- What is no directory that can be entered has no entries. -/
theorem WellFormed.children_eq_nil
    (wellFormed : tree.WellFormed)
    (notDirectory : tree.node? route ≠ some .directory) :
    tree.children route = [] := by
  refine List.eq_nil_iff_forall_not_mem.mpr fun ⟨name, node⟩ isEntry => notDirectory ?_
  have isDirectory := wellFormed.inDirectory _ (mem_children_iff.mp isEntry)
  rwa [List.dropLast_concat] at isDirectory

theorem map_below_sublist
    (tree : Tree)
    (route : Route) :
    ((tree.below route).map fun entry => route ++ entry.1).Sublist (tree.nodes.map Prod.fst) := by
  rw [below]
  induction tree.nodes with
  | nil => exact List.Sublist.refl _
  | cons entry others inductionHypothesis =>
      rw [List.filterMap_cons]
      split
      · exact inductionHypothesis.cons _
      next found isBelow =>
        dsimp only at isBelow
        split at isBelow
        next name rest isPrefix =>
          cases isBelow
          rw [List.map_cons, List.map_cons, List.isPrefixOf?_eq_some_iff_append_eq.mp isPrefix]
          exact inductionHypothesis.cons_cons _
        next => cases isBelow

theorem nodup_below
    (different : (tree.nodes.map Prod.fst).Nodup)
    (route : Route) :
    ((tree.below route).map Prod.fst).Nodup := by
  have belowDifferent := different.sublist (map_below_sublist tree route)
  refine List.Nodup.of_map (route ++ ·) ?_
  rwa [List.map_map]

theorem nodup_children
    (different : (tree.nodes.map Prod.fst).Nodup)
    (route : Route) :
    ((tree.children route).map Prod.fst).Nodup := by
  have belowDifferent := List.pairwise_map.mp (nodup_below different route)
  refine List.pairwise_map.mpr (belowDifferent.filterMap _ ?_)
  intro first second differ child isFirst otherChild isSecond same
  split at isFirst
  next =>
    cases isFirst
    split at isSecond
    next =>
      cases isSecond
      exact differ (congrArg (fun name => [name]) same)
    next => cases isSecond
  next => cases isFirst

end TestAudit.Tree
