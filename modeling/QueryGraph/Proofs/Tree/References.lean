import QueryGraph.Proofs.Tree.Listing

/-!
# What the nodes of a reachable tree refer to

Every number in a node is the number of a node of the right kind: the builder checks what it is
given, a kind never changes, and a list grows by what has just been made for it. What an
expression consists of is older than the expression.
-/

namespace QueryGraph
namespace Tree

/-! ## Nodes of a kind -/

/-- A node that is a statement. -/
def HasStatement (tree : Tree) (id : NodeId) : Prop :=
  ∃ body, tree.node? id = some (.statement body)

/-- A node that is a root of a statement. -/
def HasRoot
    (tree : Tree)
    (statement id : NodeId) : Prop :=
  ∃ body recordType, tree.node? id = some (.source body) ∧ body.kind = .root recordType ∧
    body.statement = statement

/-- A node that is a correlated source of a statement. -/
def HasCorrelation
    (tree : Tree)
    (statement id : NodeId) : Prop :=
  ∃ body outer, tree.node? id = some (.source body) ∧ body.kind = .correlated outer ∧
    body.statement = statement

/-- A node that is a fetch. -/
def HasFetch (tree : Tree) (id : NodeId) : Prop :=
  ∃ body, tree.node? id = some (.fetch body)

/-- A node that orders by an expression. -/
def HasOrder (tree : Tree) (id : NodeId) : Prop :=
  ∃ expression ascending, tree.node? id = some (.order expression ascending)

/-- A node that assigns a value. -/
def HasAssignment (tree : Tree) (id : NodeId) : Prop :=
  ∃ target value, tree.node? id = some (.assignment target value)

/-- A node that may stand in a clause. -/
def HasItem (tree : Tree) (id : NodeId) : Prop :=
  tree.HasExpression id ∨ tree.HasOrder id ∨ tree.HasAssignment id

variable {tree before after : Tree} {id parent statement : NodeId} {node child grown changed : Node}

theorem HasExpression.of_evolves
    (found : before.HasExpression id)
    (evolves : before.Evolves after) :
    after.HasExpression id := by
  obtain ⟨node, present, isExpression⟩ := found
  obtain ⟨later, presentLater, same⟩ := evolves id node present
  refine ⟨later, presentLater, ?_⟩
  cases node with
  | statement body =>
      obtain ⟨newer, rfl, sameKind, -⟩ := Node.shape_eq_statement same
      simpa [Node.isExpression, sameKind] using isExpression
  | fetch body => cases isExpression
  | order expression ascending => cases isExpression
  | assignment target value => cases isExpression
  | _ => cases later <;> first | rfl | cases same

theorem HasStatement.of_evolves
    (found : before.HasStatement id)
    (evolves : before.Evolves after) :
    after.HasStatement id := by
  obtain ⟨body, present⟩ := found
  obtain ⟨later, presentLater, same⟩ := evolves id _ present
  obtain ⟨newer, rfl, -, -⟩ := Node.shape_eq_statement same
  exact ⟨newer, presentLater⟩

theorem HasRoot.of_evolves
    (found : before.HasRoot statement id)
    (evolves : before.Evolves after) :
    after.HasRoot statement id := by
  obtain ⟨body, recordType, present, isRoot, here⟩ := found
  obtain ⟨later, presentLater, same⟩ := evolves id _ present
  obtain ⟨newer, rfl, sameStatement, sameKind⟩ := Node.shape_eq_source same
  rw [isRoot] at sameKind
  exact ⟨newer, recordType, presentLater, SourceKind.shape_eq_root sameKind,
    sameStatement.trans here⟩

theorem HasCorrelation.of_evolves
    (found : before.HasCorrelation statement id)
    (evolves : before.Evolves after) :
    after.HasCorrelation statement id := by
  obtain ⟨body, outer, present, isCorrelated, here⟩ := found
  obtain ⟨later, presentLater, same⟩ := evolves id _ present
  obtain ⟨newer, rfl, sameStatement, sameKind⟩ := Node.shape_eq_source same
  rw [isCorrelated] at sameKind
  exact ⟨newer, outer, presentLater, SourceKind.shape_eq_correlated sameKind,
    sameStatement.trans here⟩

theorem HasFetch.of_evolves
    (found : before.HasFetch id)
    (evolves : before.Evolves after) :
    after.HasFetch id := by
  obtain ⟨body, present⟩ := found
  obtain ⟨later, presentLater, same⟩ := evolves id _ present
  cases later with
  | fetch newer => exact ⟨newer, presentLater⟩
  | _ => cases same

theorem HasOrder.of_evolves
    (found : before.HasOrder id)
    (evolves : before.Evolves after) :
    after.HasOrder id := by
  obtain ⟨expression, ascending, present⟩ := found
  obtain ⟨later, presentLater, same⟩ := evolves id _ present
  cases later with
  | order other direction => exact ⟨other, direction, presentLater⟩
  | _ => cases same

theorem HasAssignment.of_evolves
    (found : before.HasAssignment id)
    (evolves : before.Evolves after) :
    after.HasAssignment id := by
  obtain ⟨target, value, present⟩ := found
  obtain ⟨later, presentLater, same⟩ := evolves id _ present
  cases later with
  | assignment other newer => exact ⟨other, newer, presentLater⟩
  | _ => cases same

/-! ## References -/

/-- What a statement refers to. -/
structure StatementRefers
    (tree : Tree)
    (id : NodeId)
    (body : Statement) : Prop where
  parent : ∀ around ∈ body.parent, around.index < id.index ∧ tree.HasStatement around
  roots : ∀ root ∈ body.roots, tree.HasRoot id root
  correlations : ∀ source ∈ body.correlations, tree.HasCorrelation id source
  selection : ∀ item ∈ body.selection, tree.HasExpression item
  restriction : ∀ item ∈ body.restriction, tree.HasExpression item
  groupList : ∀ item ∈ body.groupList, tree.HasExpression item
  groupRestriction : ∀ item ∈ body.groupRestriction, tree.HasExpression item
  orderList : ∀ item ∈ body.orderList, tree.HasOrder item
  assignments : ∀ item ∈ body.assignments, tree.HasAssignment item

/-- What a node refers to is of the right kind, and a part of an expression is older. -/
def Refers
    (tree : Tree)
    (id : NodeId) : Node -> Prop
  | .statement body => tree.StatementRefers id body
  | .source body =>
      (∀ condition ∈ body.condition?, tree.HasExpression condition) ∧
        ∀ fetch ∈ body.fetches, tree.HasFetch fetch
  | .fetch body => ∀ fetch ∈ body.fetches, tree.HasFetch fetch
  | .expression _ operands =>
      ∀ operand ∈ operands, operand.index < id.index ∧ tree.HasExpression operand
  | .order expression _ => expression.index < id.index ∧ tree.HasExpression expression
  | .assignment target value =>
      (target.index < id.index ∧ tree.HasExpression target) ∧
        value.index < id.index ∧ tree.HasExpression value
  | _ => True

/-- A tree in which every node refers to nodes of the right kind. -/
def Referring (tree : Tree) : Prop :=
  ∀ id node, tree.node? id = some node -> tree.Refers id node

/-! ## Changes preserve the references -/

theorem StatementRefers.of_evolves
    {body : Statement}
    (refers : before.StatementRefers id body)
    (evolves : before.Evolves after) :
    after.StatementRefers id body where
  parent around member := by
    obtain ⟨older, found⟩ := refers.parent around member
    exact ⟨older, found.of_evolves evolves⟩
  roots root member := (refers.roots root member).of_evolves evolves
  correlations source member := (refers.correlations source member).of_evolves evolves
  selection item member := (refers.selection item member).of_evolves evolves
  restriction item member := (refers.restriction item member).of_evolves evolves
  groupList item member := (refers.groupList item member).of_evolves evolves
  groupRestriction item member := (refers.groupRestriction item member).of_evolves evolves
  orderList item member := (refers.orderList item member).of_evolves evolves
  assignments item member := (refers.assignments item member).of_evolves evolves

theorem Refers.of_evolves
    (refers : before.Refers id node)
    (evolves : before.Evolves after) :
    after.Refers id node := by
  cases node with
  | statement body => exact StatementRefers.of_evolves refers evolves
  | source body =>
      exact ⟨fun item member => (refers.1 item member).of_evolves evolves,
        fun item member => (refers.2 item member).of_evolves evolves⟩
  | fetch body => exact fun item member => (refers item member).of_evolves evolves
  | expression operator operands =>
      exact fun operand member =>
        ⟨(refers operand member).1, (refers operand member).2.of_evolves evolves⟩
  | order expression ascending => exact ⟨refers.1, refers.2.of_evolves evolves⟩
  | assignment target value =>
      exact ⟨⟨refers.1.1, refers.1.2.of_evolves evolves⟩, refers.2.1,
        refers.2.2.of_evolves evolves⟩
  | _ => trivial

theorem HasExpression.lt_size (found : tree.HasExpression id) : id.index < tree.size := by
  obtain ⟨node, present, -⟩ := found
  exact lt_size_of_node? present

theorem Loose.refers
    (loose : tree.Loose node)
    (evolves : tree.Evolves after) :
    after.Refers ⟨tree.size⟩ node := by
  cases loose with
  | subquery parent body found =>
      have around : ∀ other ∈ some parent, other.index < tree.size ∧ after.HasStatement other := by
        intro other member
        obtain rfl := Option.some.inj member
        exact ⟨lt_size_of_node? found, HasStatement.of_evolves ⟨body, found⟩ evolves⟩
      constructor <;> simp_all
  | expression operator operands found =>
      exact fun operand member =>
        ⟨(found operand member).lt_size, (found operand member).of_evolves evolves⟩
  | _ => trivial

theorem Adopts.refers_child
    (adopts : tree.Adopts parent node child grown)
    (evolves : tree.Evolves after) :
    after.Refers ⟨tree.size⟩ child := by
  cases adopts with
  | order body expression ascending isQuery found =>
      exact ⟨found.lt_size, found.of_evolves evolves⟩
  | assignment body target value above field isUpdate isPath found =>
      exact ⟨⟨lt_size_of_node? isPath, HasExpression.of_evolves ⟨_, isPath, rfl⟩ evolves⟩,
        found.lt_size, found.of_evolves evolves⟩
  | _ => simp [Refers, Source.condition?]

/-- A node that adopts another one refers to it in addition. -/
theorem Adopts.refers_grown
    (adopts : tree.Adopts parent node child grown)
    (refers : tree.Refers parent node)
    (evolves : tree.Evolves after)
    (foundChild : after.node? ⟨tree.size⟩ = some child) :
    after.Refers parent grown := by
  have kept := refers.of_evolves evolves
  cases adopts with
  | root body recordType =>
      refine { kept with roots := List.forall_mem_append.mpr ⟨kept.roots, ?_⟩ }
      exact List.forall_mem_singleton.mpr ⟨_, recordType, foundChild, rfl, rfl⟩
  | join body field direction mode declared => exact kept
  | correlation body outer around source isSubquery found within visible =>
      refine { kept with correlations := List.forall_mem_append.mpr ⟨kept.correlations, ?_⟩ }
      exact List.forall_mem_singleton.mpr ⟨_, outer, foundChild, rfl, rfl⟩
  | fetchOfSource body field direction collection declared =>
      refine ⟨kept.1, List.forall_mem_append.mpr ⟨kept.2, ?_⟩⟩
      exact List.forall_mem_singleton.mpr ⟨_, foundChild⟩
  | fetchOfFetch body field direction collection =>
      refine List.forall_mem_append.mpr ⟨kept, ?_⟩
      exact List.forall_mem_singleton.mpr ⟨_, foundChild⟩
  | order body expression ascending isQuery found =>
      refine { kept with orderList := List.forall_mem_append.mpr ⟨kept.orderList, ?_⟩ }
      exact List.forall_mem_singleton.mpr ⟨expression, ascending, foundChild⟩
  | assignment body target value above field isUpdate isPath found =>
      refine { kept with assignments := List.forall_mem_append.mpr ⟨kept.assignments, ?_⟩ }
      exact List.forall_mem_singleton.mpr ⟨target, value, foundChild⟩

theorem Alters.refers
    (alters : tree.Alters node changed)
    (refers : tree.Refers id node)
    (evolves : tree.Evolves after) :
    after.Refers id changed := by
  have kept := refers.of_evolves evolves
  cases alters with
  | selection body expression selects found =>
      refine { kept with selection := List.forall_mem_append.mpr ⟨kept.selection, ?_⟩ }
      exact List.forall_mem_singleton.mpr (found.of_evolves evolves)
  | restriction body predicate found =>
      refine { kept with restriction := ?_ }
      intro item member
      obtain rfl := Option.some.inj member
      exact found.of_evolves evolves
  | grouping body expression selects found =>
      refine { kept with groupList := List.forall_mem_append.mpr ⟨kept.groupList, ?_⟩ }
      exact List.forall_mem_singleton.mpr (found.of_evolves evolves)
  | groupRestriction body predicate selects found =>
      refine { kept with groupRestriction := ?_ }
      intro item member
      obtain rfl := Option.some.inj member
      exact found.of_evolves evolves
  | distinct body distinct selects => exact { kept with }
  | aliasHint body name => exact kept
  | condition body parent condition field direction mode on isJoin found =>
      refine ⟨?_, kept.2⟩
      intro item member
      obtain rfl := Option.some.inj member
      exact found.of_evolves evolves

theorem Referring.change
    (referring : before.Referring)
    (change : before.Change after) :
    after.Referring := by
  have evolves := change.evolves
  intro id node found
  cases change.origin found with
  | kept foundBefore => exact (referring id node foundBefore).of_evolves evolves
  | added new loose =>
      rw [new]
      exact loose.refers evolves
  | adopted parent older grown new foundParent adopts foundGrown =>
      rw [new]
      exact adopts.refers_child evolves
  | grown older child foundOlder adopts foundChild =>
      exact adopts.refers_grown (referring id older foundOlder) evolves foundChild
  | altered older foundOlder alters => exact alters.refers (referring id older foundOlder) evolves

theorem Referring.changes
    (referring : before.Referring)
    (changes : before.Changes after) :
    after.Referring := by
  induction changes with
  | refl => exact referring
  | tail earlier change inductionHypothesis => exact inductionHypothesis.change change

/-- The references are a matter of the nodes alone. -/
theorem Referring.of_nodes
    (referring : before.Referring)
    (nodes : after.nodes = before.nodes) :
    after.Referring := by
  intro id node found
  rw [node?_eq_of_nodes nodes] at found
  exact (referring id node found).of_evolves (.of_eq (node?_eq_of_nodes nodes))

/-- Every node of a reachable tree refers to nodes of the right kind. -/
theorem Reachable.referring (reachable : tree.Reachable) : tree.Referring := by
  refine reachable.induction_of_nodes ?_ ?_ ?_
  · intro kind id node found
    obtain rfl := node?_ofKind found
    constructor <;> simp
  · exact fun before after change referring => referring.change change
  · exact fun before after nodes referring => referring.of_nodes nodes

end Tree
end QueryGraph
