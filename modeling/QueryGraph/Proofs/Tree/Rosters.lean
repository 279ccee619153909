import QueryGraph.Proofs.Tree.Evolution

/-!
# Lists and what they list

A root, a correlated source, a join and a fetch name the node that they were made for, and
that node lists them. The two agree in every reachable tree: a list consists of exactly
the nodes that name it, each once, in the order in which they were made.
-/

namespace QueryGraph

/-- The lists of what was made for a node. -/
inductive Roster
  | roots
  | correlations
  | joins
  | fetches
  deriving DecidableEq, Repr

namespace Node

/-- What a node lists. -/
def roster : Node -> Roster -> List NodeId
  | .statement body, .roots => body.roots
  | .statement body, .correlations => body.correlations
  | .source body, .joins => body.joins
  | .source body, .fetches => body.fetches
  | .fetch body, .fetches => body.fetches
  | _, _ => []

/-- The list that a node was made for, and the node that has the list. -/
def enrolled? : Node -> Option (Roster × NodeId)
  | .source body =>
      match body.kind with
      | .root _ => some (.roots, body.statement)
      | .join parent _ _ _ _ => some (.joins, parent)
      | .correlated _ => some (.correlations, body.statement)
  | .fetch body => some (.fetches, body.parent)
  | _ => none

/-- What a node was made for belongs to its shape. -/
theorem enrolled?_of_shape
    {node later : Node}
    (same : later.shape = node.shape) :
    later.enrolled? = node.enrolled? := by
  cases node with
  | source body =>
      obtain ⟨newer, rfl, sameStatement, sameKind⟩ := shape_eq_source same
      unfold enrolled?
      cases kind : body.kind with
      | root recordType =>
          rw [kind] at sameKind
          simp only [kind, SourceKind.shape_eq_root sameKind, sameStatement]
      | join parent field direction mode on =>
          rw [kind] at sameKind
          obtain ⟨laterOn, laterKind⟩ := SourceKind.shape_eq_join sameKind
          simp only [kind, laterKind]
      | correlated outer =>
          rw [kind] at sameKind
          simp only [kind, SourceKind.shape_eq_correlated sameKind, sameStatement]
  | fetch body =>
      cases later with
      | fetch newer =>
          simp only [shape, fetch.injEq, Fetch.mk.injEq] at same
          exact congrArg (fun parent => some (Roster.fetches, parent)) same.1
      | _ => cases same
  | statement body => cases later <;> first | rfl | cases same
  | _ => cases later <;> first | rfl | cases same

end Node

namespace Tree

variable {tree before after : Tree} {id parent : NodeId} {node child grown changed : Node}

/-- Whether a node was made for a list. -/
def isEnrolled
    (tree : Tree)
    (roster : Roster)
    (id child : NodeId) : Bool :=
  (tree.node? child).bind Node.enrolled? = some (roster, id)

/-- The nodes that were made for a list, in the order in which they were made. -/
def members
    (tree : Tree)
    (roster : Roster)
    (id : NodeId) : List NodeId :=
  tree.ids.filter (tree.isEnrolled roster id)

/-- A tree in which every node was made for an older one, and in which a node lists exactly
what was made for it. -/
structure Rostered (tree : Tree) : Prop where
  older : ∀ id node, tree.node? id = some node ->
    ∀ roster above, node.enrolled? = some (roster, above) -> above.index < id.index
  roster_eq : ∀ id node, tree.node? id = some node ->
    ∀ roster, node.roster roster = tree.members roster id

/-! ## Nodes made for a list -/

theorem isEnrolled_of_some
    (found : tree.node? parent = some node)
    (roster : Roster)
    (id : NodeId) :
    tree.isEnrolled roster id parent = decide (node.enrolled? = some (roster, id)) := by
  simp [isEnrolled, found]

theorem ids_push (tree : Tree) (node : Node) : (tree.push node).ids = tree.ids ++ [⟨tree.size⟩] := by
  simp [ids, List.range_succ]

/-- A later tree of the same size lists the same nodes. -/
theorem members_of_evolves
    (evolves : before.Evolves after)
    (size : after.size = before.size)
    (roster : Roster)
    (id : NodeId) :
    after.members roster id = before.members roster id := by
  have same : after.ids = before.ids := by rw [ids, ids, size]
  unfold members
  rw [same]
  refine List.filter_congr fun child member => ?_
  obtain ⟨node, found⟩ := node?_isSome_of_lt (mem_ids.mp member)
  obtain ⟨later, foundLater, shape⟩ := evolves child node found
  rw [isEnrolled_of_some found, isEnrolled_of_some foundLater, Node.enrolled?_of_shape shape]

/-- An added node is the last in the list that it was made for. -/
theorem members_push
    (tree : Tree)
    (added : Node)
    (roster : Roster)
    (id : NodeId) :
    (tree.push added).members roster id =
      tree.members roster id ++
        if added.enrolled? = some (roster, id) then [⟨tree.size⟩] else [] := by
  unfold members
  rw [ids_push, List.filter_append]
  congr 1
  · refine List.filter_congr fun child member => ?_
    obtain ⟨node, found⟩ := node?_isSome_of_lt (mem_ids.mp member)
    rw [isEnrolled_of_some found, isEnrolled_of_some (node?_push_of_some added found)]
  · rw [List.filter_singleton, isEnrolled_of_some (node?_push_size tree added)]
    simp

/-- Nothing was made for a node that is still to come. -/
theorem Rostered.members_next
    (rostered : tree.Rostered)
    (roster : Roster) :
    tree.members roster ⟨tree.size⟩ = [] := by
  refine List.filter_eq_nil_iff.mpr fun child member enrolled => ?_
  have below := mem_ids.mp member
  obtain ⟨node, found⟩ := node?_isSome_of_lt below
  rw [isEnrolled_of_some found] at enrolled
  exact Nat.lt_asymm below (rostered.older child node found roster _ (of_decide_eq_true enrolled))

/-! ## Changes keep the lists -/

theorem Loose.enrolled?_eq_none (loose : tree.Loose node) : node.enrolled? = none := by
  cases loose <;> rfl

theorem Loose.roster_eq_nil
    (loose : tree.Loose node)
    (roster : Roster) :
    node.roster roster = [] := by
  cases loose <;> cases roster <;> rfl

/-- What is adopted was made for the node that adopts it, or for no list at all. -/
theorem Adopts.enrolled?_child
    {roster : Roster}
    {above : NodeId}
    (adopts : tree.Adopts parent node child grown)
    (enrolled : child.enrolled? = some (roster, above)) :
    above = parent := by
  cases adopts <;> cases enrolled <;> rfl

theorem Adopts.roster_child
    (adopts : tree.Adopts parent node child grown)
    (roster : Roster) :
    child.roster roster = [] := by
  cases adopts <;> cases roster <;> rfl

/-- A node that adopts another one puts it at the end of the list that it was made for. -/
theorem Adopts.roster_grown
    (adopts : tree.Adopts parent node child grown)
    (roster : Roster) :
    grown.roster roster =
      node.roster roster ++
        if child.enrolled? = some (roster, parent) then [⟨tree.size⟩] else [] := by
  cases adopts <;> cases roster <;> simp [Node.roster, Node.enrolled?]

theorem Alters.roster_eq
    (alters : tree.Alters node changed)
    (roster : Roster) :
    changed.roster roster = node.roster roster := by
  cases alters <;> cases roster <;> rfl

/-- A node is still made for the list that it was made for, and for an older node. -/
theorem Rostered.older_of_change
    (rostered : before.Rostered)
    (change : before.Change after)
    {roster : Roster}
    {above : NodeId}
    (found : after.node? id = some node)
    (enrolled : node.enrolled? = some (roster, above)) :
    above.index < id.index := by
  cases change.origin found with
  | kept foundBefore => exact rostered.older id node foundBefore roster above enrolled
  | added new loose =>
      rw [loose.enrolled?_eq_none] at enrolled
      cases enrolled
  | adopted parent older grown new foundParent adopts foundGrown =>
      rw [adopts.enrolled?_child enrolled, new]
      exact lt_size_of_node? foundParent
  | grown older child foundOlder adopts foundChild =>
      rw [Node.enrolled?_of_shape adopts.shape_eq] at enrolled
      exact rostered.older id older foundOlder roster above enrolled
  | altered older foundOlder alters =>
      rw [Node.enrolled?_of_shape alters.shape_eq] at enrolled
      exact rostered.older id older foundOlder roster above enrolled

theorem Rostered.change
    (rostered : before.Rostered)
    (change : before.Change after) :
    after.Rostered := by
  refine ⟨fun id node found roster above => rostered.older_of_change change found, ?_⟩
  intro id node found roster
  cases change with
  | added added loose =>
      have same : (before.push added).members roster id = before.members roster id := by
        simp [members_push, loose.enrolled?_eq_none]
      rw [same]
      rcases node?_push_cases found with kept | ⟨rfl, rfl⟩
      · exact rostered.roster_eq id node kept roster
      · rw [loose.roster_eq_nil, rostered.members_next]
  | adopted parent older child grown parentFound free adopts =>
      have pushed := node?_push_of_some child parentFound
      have same : ((before.push child).replace parent grown).members roster id =
          (before.push child).members roster id :=
        members_of_evolves (.replace pushed adopts.shape_eq) (size_replace _ _ _) roster id
      rw [same, members_push]
      by_cases here : id = parent
      · subst here
        rw [node?_replace_self grown pushed] at found
        cases found
        rw [adopts.roster_grown, rostered.roster_eq id older parentFound]
      · have notMade : child.enrolled? ≠ some (roster, id) := fun enrolled =>
          here (adopts.enrolled?_child enrolled)
        rw [if_neg notMade, List.append_nil]
        rw [node?_replace_of_ne grown here] at found
        rcases node?_push_cases found with kept | ⟨rfl, rfl⟩
        · exact rostered.roster_eq id node kept roster
        · rw [adopts.roster_child, rostered.members_next]
  | altered changed older newer changedFound free alters =>
      rw [members_of_evolves (.replace changedFound alters.shape_eq) (size_replace _ _ _)]
      by_cases here : id = changed
      · subst here
        rw [node?_replace_self newer changedFound] at found
        cases found
        rw [alters.roster_eq, rostered.roster_eq id older changedFound]
      · rw [node?_replace_of_ne newer here] at found
        exact rostered.roster_eq id node found roster

/-- The lists are a matter of the nodes alone. -/
theorem Rostered.of_nodes
    (rostered : before.Rostered)
    (nodes : after.nodes = before.nodes) :
    after.Rostered := by
  have same := node?_eq_of_nodes nodes
  have size : after.size = before.size := by rw [Tree.size, Tree.size, nodes]
  refine ⟨fun id node found => ?_, fun id node found roster => ?_⟩
  · exact rostered.older id node (by rwa [← same id])
  · rw [members_of_evolves (.of_eq same) size]
    exact rostered.roster_eq id node (by rwa [← same id]) roster

theorem rostered_ofKind (kind : StatementKind) : (ofKind kind).Rostered := by
  refine ⟨fun id node found roster above enrolled => ?_, fun id node found roster => ?_⟩
  · obtain rfl := node?_ofKind found
    cases enrolled
  · obtain rfl := node?_ofKind found
    have empty : (ofKind kind).members roster id = [] := by
      refine List.filter_eq_nil_iff.mpr fun child member enrolled => ?_
      obtain ⟨body, foundChild⟩ := node?_isSome_of_lt (mem_ids.mp member)
      rw [isEnrolled_of_some foundChild, node?_ofKind foundChild] at enrolled
      cases of_decide_eq_true enrolled
    rw [empty]
    cases roster <;> rfl

/-- Every node of a reachable tree lists exactly what was made for it. -/
theorem Reachable.rostered (reachable : tree.Reachable) : tree.Rostered := by
  refine reachable.induction_of_nodes rostered_ofKind ?_ ?_
  · exact fun before after change rostered => rostered.change change
  · exact fun before after nodes rostered => rostered.of_nodes nodes

end Tree
end QueryGraph
