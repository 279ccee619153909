import QueryGraph.Proofs.Entries
import QueryGraph.Proofs.Tree.Agreement
import QueryGraph.Proofs.Tree.Depth
import QueryGraph.Proofs.Walk.Steps

/-!
# The visits of a walk

Which nodes a walk meets, in which order, and with which statements around them, is a matter of
the nodes of a tree alone. A statement is visited again wherever it is used, and a visit to one
that is still open goes no further.
-/

namespace QueryGraph

open Operation

/-- A visit to a node. -/
structure Visit where
  node : NodeId
  /-- The statements around the node, innermost first. -/
  enclosing : List NodeId
  deriving DecidableEq, Repr

/-- The nodes that an expression, an order or an assignment consists of. -/
def Node.parts : Node -> List NodeId
  | .expression _ operands => operands
  | .order ordered _ => [ordered]
  | .assignment target value => [target, value]
  | _ => []

namespace Tree

/-- The conditions of a root and of the joins below it. -/
def conditionsOf (tree : Tree) (root : NodeId) : List NodeId :=
  match tree.sourceTree root with
  | .ok source => source.conditions
  | .error _ => []

/-- What stands in a clause of a statement. -/
def items
    (tree : Tree)
    (statement : Statement) : Clause -> List NodeId
  | .selection => statement.selection
  | .on => statement.roots.flatMap tree.conditionsOf
  | .assignments => statement.assignments
  | .restriction => statement.restriction.toList
  | .groupList => statement.groupList
  | .groupRestriction => statement.groupRestriction.toList
  | .orderList => statement.orderList

/-- The visits to a node inside some statements and to what it consists of, given those to a
subquery. -/
def visitsBelow
    (tree : Tree)
    (subquery : NodeId -> List Visit)
    (enclosing : List NodeId) :
    (fuel : Nat) -> NodeId -> List Visit
  | 0, _ => []
  | fuel + 1, id =>
      match tree.node? id with
      | none => []
      | some (.statement _) => subquery id
      | some node =>
          ⟨id, enclosing⟩ :: node.parts.flatMap (tree.visitsBelow subquery enclosing fuel)

/-- The visits to what stands in the clauses of a statement, given those to a subquery. -/
def visitsWithin
    (tree : Tree)
    (subquery : NodeId -> List Visit)
    (enclosing : List NodeId)
    (bound : Nat)
    (statement : Statement) : List Visit :=
  (Walking.clauses statement.kind).flatMap fun clause =>
    (tree.items statement clause).flatMap (tree.visitsBelow subquery enclosing bound)

/-- The visits to a statement and to everything in it. -/
def visitsOf
    (tree : Tree)
    (bound : Nat) :
    (fuel : Nat) -> List NodeId -> NodeId -> List Visit
  | 0, _, _ => []
  | fuel + 1, enclosing, id =>
      ⟨id, enclosing⟩ ::
        if id ∈ enclosing then []
        else
          match tree.node? id with
          | some (.statement body) =>
              tree.visitsWithin (tree.visitsOf bound fuel (id :: enclosing)) (id :: enclosing)
                bound body
          | _ => []

/-- All visits of a walk. -/
def visits (tree : Tree) : List Visit :=
  tree.visitsOf (tree.size + 1) (tree.size + 1) [] top

/-! ## What is visited -/

/-- Whether a node is a statement. -/
def isStatement (tree : Tree) (id : NodeId) : Bool :=
  match tree.node? id with
  | some (.statement _) => true
  | _ => false

/-- Whether a node is a positional placeholder. -/
def isAnonymous (tree : Tree) (id : NodeId) : Bool :=
  tree.node? id = some (.parameter none)

/-- The statements among some visits, each where it is visited first. -/
def entered (tree : Tree) (visits : List Visit) : List NodeId :=
  ((visits.map Visit.node).filter tree.isStatement).eraseDups

/-- The positional placeholders among some visits. -/
def anonymous (tree : Tree) (visits : List Visit) : List NodeId :=
  (visits.map Visit.node).filter tree.isAnonymous

variable {tree : Tree} {id : NodeId} {earlier visits : List Visit} {visit : Visit}

theorem entered_append_of_isStatement
    (isStatement : tree.isStatement visit.node = true) :
    tree.entered (earlier ++ [visit]) =
      if visit.node ∈ tree.entered earlier then tree.entered earlier
      else tree.entered earlier ++ [visit.node] := by
  unfold entered
  rw [List.map_append, List.filter_append, List.map_singleton,
    List.filter_cons_of_pos isStatement, List.filter_nil, Entries.eraseDups_append_singleton]
  simp only [List.mem_eraseDups]

theorem entered_append_of_not
    (noStatement : tree.isStatement visit.node = false) :
    tree.entered (earlier ++ [visit]) = tree.entered earlier := by
  unfold entered
  simp [noStatement]

/-- The top statement is entered first. -/
theorem head?_entered_visits
    {body : Statement}
    (found : tree.node? top = some (.statement body)) :
    (tree.entered tree.visits).head? = some top := by
  have isStatement : tree.isStatement top = true := by
    unfold Tree.isStatement
    simp only [found]
  unfold entered visits visitsOf
  rw [List.map_cons, List.filter_cons_of_pos isStatement, List.eraseDups_cons]
  rfl

theorem anonymous_append_singleton (tree : Tree) (earlier : List Visit) (visit : Visit) :
    tree.anonymous (earlier ++ [visit]) =
      if tree.isAnonymous visit.node then tree.anonymous earlier ++ [visit.node]
      else tree.anonymous earlier := by
  unfold anonymous
  rw [List.map_append, List.filter_append, List.map_singleton]
  by_cases isAnonymous : tree.isAnonymous visit.node
  · rw [List.filter_cons_of_pos isAnonymous, List.filter_nil, if_pos isAnonymous]
  · rw [List.filter_cons_of_neg isAnonymous, List.filter_nil, if_neg isAnonymous, List.append_nil]

/-- What is visited first is met first. -/
theorem anonymous_prefix
    (ahead : earlier <+: visits) :
    tree.anonymous earlier <+: tree.anonymous visits :=
  (ahead.map Visit.node).filter tree.isAnonymous

/-! ## What stands in a clause -/

theorem flatMap_conditions_of_mapM
    {roots : List NodeId}
    {sources : List SourceTree}
    (read : roots.mapM tree.sourceTree = .ok sources) :
    sources.flatMap SourceTree.conditions = roots.flatMap tree.conditionsOf := by
  rw [mapM_eq_ok] at read
  induction read with
  | nil => rfl
  | cons first _ inductionHypothesis =>
      rw [List.flatMap_cons, List.flatMap_cons, inductionHypothesis]
      unfold conditionsOf
      rw [first]

/-- A condition below a root is an expression. -/
theorem Orderly.hasExpression_of_mem_conditionsOf
    {root condition : NodeId}
    (orderly : tree.Orderly)
    (member : condition ∈ tree.conditionsOf root) :
    tree.HasExpression condition := by
  unfold conditionsOf at member
  cases read : tree.sourceTree root with
  | error error =>
      rw [read] at member
      cases member
  | ok source =>
      rw [read] at member
      obtain ⟨⟨id, body, fetches, joins⟩, contains, isCondition⟩ :=
        source.exists_contains_of_mem_conditions member
      obtain ⟨found, -⟩ :=
        SourceTree.readFrom_mk (contains.readFrom (SourceTree.readFrom_of_ofNode read))
      exact (orderly.referring id _ found).1 condition isCondition

theorem Orderly.hasItem_of_mem_items
    {statement : Statement}
    {clause : Clause}
    {item : NodeId}
    (orderly : tree.Orderly)
    (found : tree.node? id = some (.statement statement))
    (member : item ∈ tree.items statement clause) :
    tree.HasItem item := by
  have refers : tree.StatementRefers id statement := orderly.referring id _ found
  cases clause with
  | selection => exact Or.inl (refers.selection item member)
  | on =>
      obtain ⟨root, -, inRoot⟩ := List.mem_flatMap.mp member
      exact Or.inl (orderly.hasExpression_of_mem_conditionsOf inRoot)
  | assignments => exact Or.inr (Or.inr (refers.assignments item member))
  | restriction => exact Or.inl (refers.restriction item (Option.mem_toList.mp member))
  | groupList => exact Or.inl (refers.groupList item member)
  | groupRestriction => exact Or.inl (refers.groupRestriction item (Option.mem_toList.mp member))
  | orderList => exact Or.inr (Or.inl (refers.orderList item member))

/-- The parts of a node are older expressions. -/
theorem Referring.parts
    {node : Node}
    {part : NodeId}
    (referring : tree.Referring)
    (found : tree.node? id = some node)
    (member : part ∈ node.parts) :
    part.index < id.index ∧ tree.HasExpression part := by
  have refers := referring id node found
  cases node with
  | expression operator operands => exact refers part member
  | order ordered ascending =>
      obtain rfl := List.mem_singleton.mp member
      exact refers
  | assignment target value =>
      obtain ⟨targetRefers, valueRefers⟩ := refers
      rcases List.mem_cons.mp member with rfl | last
      · exact targetRefers
      · obtain rfl := List.mem_singleton.mp last
        exact valueRefers
  | _ => cases member

end Tree

/-- On a tree with the same nodes, the items of a clause are those that the nodes give. -/
theorem Walking.clauseItems_eq_ok
    {tree : Tree}
    {walk : Walk}
    {id : NodeId}
    {body : Statement}
    {clause : Clause}
    (orderly : tree.Orderly)
    (nodes : walk.tree.nodes = tree.nodes)
    (found : tree.node? id = some (.statement body)) :
    clauseItems body clause walk = .ok (tree.items body clause) walk := by
  cases clause with
  | on =>
      have refers : tree.StatementRefers id body := orderly.referring id _ found
      obtain ⟨sources, read⟩ := exists_mapM_eq_ok fun root member => by
        obtain ⟨source, _, isSource, -, -⟩ := refers.roots root member
        exact orderly.exists_sourceTree isSource
      have readHere : body.roots.mapM walk.tree.sourceTree = .ok sources := by
        refine mapM_eq_ok_of_imp read fun root _ source _ found => ?_
        exact (Tree.Matches.of_nodes nodes source.ids).sourceTree (List.Subset.refl _) found
      refine (bind_of_ok (read_eq_ok.mpr ⟨readHere, rfl⟩)).trans ?_
      rw [pure_apply, Tree.flatMap_conditions_of_mapM read]
      rfl
  | _ => rfl

end QueryGraph
