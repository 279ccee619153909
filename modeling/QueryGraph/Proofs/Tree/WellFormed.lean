import QueryGraph.Proofs.Tree.Depth
import QueryGraph.Proofs.Tree.Rosters

/-!
# Well-formed trees

What the compiler relies on in a tree, and never checks: numbers are numbers of nodes,
what a node is made of is older, lists and what they list agree, clauses stand only in
statements that accept them, and a correlated source stands for a source of a statement
around its subquery. Every call of every operation keeps all of it, whatever its arguments
are and whether it succeeds or is refused.
-/

namespace QueryGraph

/-- A statement that has only clauses that its kind accepts. -/
structure Statement.Accepts (body : Statement) : Prop where
  correlations : body.correlations ≠ [] -> body.kind = .subquery
  selection : body.selection ≠ [] -> body.kind ∈ Build.selecting
  groupList : body.groupList ≠ [] -> body.kind ∈ Build.selecting
  groupRestriction : body.groupRestriction ≠ none -> body.kind ∈ Build.selecting
  orderList : body.orderList ≠ [] -> body.kind = .query
  assignments : body.assignments ≠ [] -> body.kind = .update
  distinct : body.distinct = true -> body.kind ∈ Build.selecting

/-- A statement without any clause accepts what it has. -/
theorem Statement.accepts_bare
    (kind : StatementKind)
    (parent : Option NodeId) :
    Statement.Accepts { kind := kind, parent := parent } := by
  constructor <;> simp

namespace Tree

variable {tree before after : Tree} {id parent : NodeId} {node child grown changed : Node}

/-! ## Clauses, fetches and assignments -/

/-- A node that is a path. -/
def HasPath (tree : Tree) (id : NodeId) : Prop :=
  ∃ above field, tree.node? id = some (.path above field)

/-- A node that a join or a fetch may hang off. -/
def HasJoinable (tree : Tree) (id : NodeId) : Prop :=
  ∃ body, tree.node? id = some (.source body) ∧ body.isCorrelated = false

/-- What a node has to be or to refer to beyond its kind. -/
def Admits (tree : Tree) : Node -> Prop
  | .statement body => body.Accepts
  | .fetch body => tree.HasJoinable body.parent ∨ tree.HasFetch body.parent
  | .assignment target _ => tree.HasPath target
  | _ => True

/-- A tree in which every node is what it has to be. -/
def Admitting (tree : Tree) : Prop :=
  ∀ id node, tree.node? id = some node -> tree.Admits node

theorem HasPath.of_evolves
    (found : before.HasPath id)
    (evolves : before.Evolves after) :
    after.HasPath id := by
  obtain ⟨above, field, present⟩ := found
  obtain ⟨later, presentLater, same⟩ := evolves id _ present
  rw [Node.shape_eq_path same] at presentLater
  exact ⟨above, field, presentLater⟩

theorem HasJoinable.of_evolves
    (found : before.HasJoinable id)
    (evolves : before.Evolves after) :
    after.HasJoinable id := by
  obtain ⟨body, present, declared⟩ := found
  obtain ⟨later, presentLater, same⟩ := evolves id _ present
  obtain ⟨newer, rfl, -, sameKind⟩ := Node.shape_eq_source same
  exact ⟨newer, presentLater, (Source.isCorrelated_of_shape sameKind).trans declared⟩

theorem Admits.of_evolves
    (admits : before.Admits node)
    (evolves : before.Evolves after) :
    after.Admits node := by
  cases node with
  | fetch body => exact admits.imp (·.of_evolves evolves) (·.of_evolves evolves)
  | assignment target value => exact HasPath.of_evolves admits evolves
  | statement body => exact admits
  | _ => trivial

theorem Loose.admits
    (loose : tree.Loose node) :
    tree.Admits node := by
  cases loose with
  | subquery parent body found => exact Statement.accepts_bare .subquery (some parent)
  | _ => trivial

theorem Adopts.admits_child
    (adopts : tree.Adopts parent node child grown)
    (found : tree.node? parent = some node) :
    tree.Admits child := by
  cases adopts with
  | fetchOfSource body field direction collection declared =>
      exact Or.inl ⟨body, found, declared⟩
  | fetchOfFetch body field direction collection => exact Or.inr ⟨body, found⟩
  | assignment body target value above field isUpdate isPath isExpression =>
      exact ⟨above, field, isPath⟩
  | _ => trivial

theorem Adopts.admits_grown
    (adopts : tree.Adopts parent node child grown)
    (admits : tree.Admits node) :
    tree.Admits grown := by
  cases adopts with
  | root body recordType => exact { admits with }
  | correlation body outer around source isSubquery found within visible =>
      exact { admits with correlations := fun _ => isSubquery }
  | order body expression ascending isQuery found =>
      exact { admits with orderList := fun _ => isQuery }
  | assignment body target value above field isUpdate isPath found =>
      exact { admits with assignments := fun _ => isUpdate }
  | fetchOfFetch body field direction collection => exact admits
  | _ => trivial

theorem Alters.admits
    (alters : tree.Alters node changed)
    (admits : tree.Admits node) :
    tree.Admits changed := by
  cases alters with
  | selection body expression selects found =>
      exact { admits with selection := fun _ => selects }
  | restriction body predicate found => exact { admits with }
  | grouping body expression selects found =>
      exact { admits with groupList := fun _ => selects }
  | groupRestriction body predicate selects found =>
      exact { admits with groupRestriction := fun _ => selects }
  | distinct body distinct selects => exact { admits with distinct := fun _ => selects }
  | _ => trivial

/-- Every node of a reachable tree is what it has to be. -/
theorem Reachable.admitting (reachable : tree.Reachable) : tree.Admitting := by
  refine reachable.induction_of_nodes ?_ ?_ ?_
  · intro kind id node found
    obtain rfl := node?_ofKind found
    exact Statement.accepts_bare kind none
  · intro before after change admitting id node found
    have evolves := change.evolves
    cases change.origin found with
    | kept foundBefore => exact (admitting id node foundBefore).of_evolves evolves
    | added new loose => exact loose.admits.of_evolves evolves
    | adopted parent older grown new foundParent adopts foundGrown =>
        exact (adopts.admits_child foundParent).of_evolves evolves
    | grown older child foundOlder adopts foundChild =>
        exact (adopts.admits_grown (admitting id older foundOlder)).of_evolves evolves
    | altered older foundOlder alters =>
        exact (alters.admits (admitting id older foundOlder)).of_evolves evolves
  · intro before after nodes admitting id node found
    have same := node?_eq_of_nodes nodes
    rw [same id] at found
    exact (admitting id node found).of_evolves (.of_eq same)

end Tree

/-! ## Numbers in a node -/

namespace SourceKind

/-- The numbers of the nodes that a source comes from. -/
def elders : SourceKind -> List NodeId
  | .root _ => []
  | .join parent _ _ _ _ => [parent]
  | .correlated outer => [outer]

end SourceKind

namespace Node

/-- The numbers of the nodes that a node was made of or made for. -/
def elders : Node -> List NodeId
  | .statement body => body.parent.toList
  | .source body => body.kind.elders
  | .fetch body => [body.parent]
  | .path parent _ => [parent]
  | .treat target _ => [target]
  | .expression _ operands => operands
  | .order item _ => [item]
  | .assignment target value => [target, value]
  | .parameter _ | .literal _ => []

/-- The numbers of the nodes in the lists and clauses of a node. -/
def lists : Node -> List NodeId
  | .statement body =>
      body.roots ++ body.correlations ++ body.selection ++ body.restriction.toList ++
        body.groupList ++ body.groupRestriction.toList ++ body.orderList ++ body.assignments
  | .source body => body.statement :: (body.condition?.toList ++ body.joins ++ body.fetches)
  | .fetch body => body.fetches
  | _ => []

end Node

namespace Tree

variable {tree : Tree} {id : NodeId}

/-- Every clause of a statement lists nodes that may stand there. -/
structure Furnished
    (tree : Tree)
    (body : Statement) : Prop where
  selection : ∀ item ∈ body.selection, tree.HasExpression item
  restriction : ∀ item ∈ body.restriction, tree.HasExpression item
  groupList : ∀ item ∈ body.groupList, tree.HasExpression item
  groupRestriction : ∀ item ∈ body.groupRestriction, tree.HasExpression item
  orderList : ∀ item ∈ body.orderList, ∃ expression ascending,
    tree.node? item = some (.order expression ascending) ∧ tree.HasExpression expression
  assignments : ∀ item ∈ body.assignments, ∃ target value,
    tree.node? item = some (.assignment target value) ∧ tree.HasPath target ∧
      tree.HasExpression value

/-- A statement that was declared in another one. -/
def DeclaredIn
    (tree : Tree)
    (statement around : NodeId) : Prop :=
  ∃ body, tree.node? statement = some (.statement body) ∧ body.parent = some around

/-- A statement that is another one, or that the other one was declared in, directly or
through others. -/
def Surrounds
    (tree : Tree)
    (outer inner : NodeId) : Prop :=
  Relation.ReflTransGen tree.DeclaredIn inner outer

/-- A source that belongs to a statement around the one that a subquery was declared in. -/
def Visible
    (tree : Tree)
    (subquery source : NodeId) : Prop :=
  ∃ body around, tree.DeclaredIn subquery around ∧ tree.node? source = some (.source body) ∧
    tree.Surrounds body.statement around

/-- Everything that the nodes of a tree have to agree on. -/
structure WellFormed (tree : Tree) : Prop where
  /-- Every node has its hold, and there are no other ones. -/
  holds : tree.holds.size = tree.nodes.size
  /-- Every number in a node is the number of a node. -/
  present : ∀ id node, tree.node? id = some node ->
    ∀ other ∈ node.elders ++ node.lists, tree.contains other = true
  /-- What a node was made of or made for is older. -/
  older : ∀ id node, tree.node? id = some node -> ∀ other ∈ node.elders, other.index < id.index
  /-- A node lists exactly what was made for it, in the order in which it was made. -/
  listed : ∀ id node, tree.node? id = some node ->
    ∀ roster, node.roster roster = tree.members roster id
  /-- A join hangs off a source of its own statement that stands for itself. -/
  joined : ∀ id body, tree.node? id = some (.source body) ->
    ∀ parent field direction mode on, body.kind = .join parent field direction mode on ->
      ∃ above, tree.node? parent = some (.source above) ∧ above.isCorrelated = false ∧
        above.statement = body.statement
  /-- A fetch hangs off a source that stands for itself, or off another fetch. -/
  fetched : ∀ id body, tree.node? id = some (.fetch body) ->
    tree.HasJoinable body.parent ∨ tree.HasFetch body.parent
  /-- Clauses list what may stand there. -/
  furnished : ∀ id body, tree.node? id = some (.statement body) -> tree.Furnished body
  /-- A statement has only clauses that its kind accepts. -/
  accepts : ∀ id body, tree.node? id = some (.statement body) -> body.Accepts
  /-- A correlated source of a subquery stands for a source around it, and so does what
  that one finally stands for. -/
  correlated : ∀ id body, tree.node? id = some (.source body) ->
    ∀ outer, body.kind = .correlated outer -> tree.Visible body.statement outer ∧
      ∃ resolved, tree.resolveCorrelation id = .ok resolved ∧ tree.HasJoinable resolved ∧
        tree.Visible body.statement resolved

theorem contains_of_node?
    {node : Node}
    (found : tree.node? id = some node) :
    tree.contains id = true :=
  contains_iff.mpr (lt_size_of_node? found)

theorem HasStatement.contains (found : tree.HasStatement id) : tree.contains id = true := by
  obtain ⟨body, present⟩ := found
  exact contains_of_node? present

theorem HasExpression.contains (found : tree.HasExpression id) : tree.contains id = true :=
  contains_iff.mpr found.lt_size

/-- The statement of a source is a statement. -/
theorem Placed.hasStatement
    {body : Source}
    (placed : tree.Placed)
    (found : tree.node? id = some (.source body)) :
    tree.HasStatement body.statement := by
  induction index : id.index using Nat.strongRecOn generalizing id body with
  | _ index inductionHypothesis =>
      subst index
      have places := (placed id _ found).1
      cases kind : body.kind with
      | root recordType =>
          rw [kind] at places
          obtain ⟨statement, present, -⟩ := places
          exact ⟨statement, present⟩
      | join parent field direction mode on =>
          rw [kind] at places
          obtain ⟨older, above, present, -, same, -⟩ := places
          rw [← same]
          exact inductionHypothesis parent.index older present rfl
      | correlated outer =>
          rw [kind] at places
          obtain ⟨-, statement, -, -, present, -⟩ := places
          exact ⟨statement, present⟩

/-- The test for an enclosing statement finds the statements around one. -/
theorem surrounds_of_enclosesFrom
    {ancestor : NodeId}
    {fuel : Nat}
    (encloses : tree.enclosesFrom ancestor fuel id = .ok true) :
    tree.Surrounds ancestor id := by
  induction fuel generalizing id with
  | zero => cases encloses
  | succ fuel inductionHypothesis =>
      unfold enclosesFrom at encloses
      by_cases here : id = ancestor
      · rw [here]
        exact .refl
      · rw [if_neg here] at encloses
        cases found : tree.statement id with
        | error error =>
            rw [found] at encloses
            cases encloses
        | ok body =>
            rw [found] at encloses
            cases parent : body.parent with
            | none =>
                simp only [parent] at encloses
                cases encloses
            | some around =>
                simp only [parent] at encloses
                exact .head ⟨body, statement_eq_ok.mp found, parent⟩
                  (inductionHypothesis encloses)

/-- A source that is visible around a statement is visible inside. -/
theorem Visible.inward
    {outer inner source : NodeId}
    (visible : tree.Visible outer source)
    (surrounds : ∃ around, tree.DeclaredIn inner around ∧ tree.Surrounds outer around) :
    tree.Visible inner source := by
  obtain ⟨body, around, declared, found, above⟩ := visible
  obtain ⟨between, declaredInner, below⟩ := surrounds
  exact ⟨body, between, declaredInner, found, below.trans (.head declared above)⟩

/-- What a correlated source stands for is visible in its subquery. -/
theorem Placed.visible
    {body : Source}
    {outer : NodeId}
    (placed : tree.Placed)
    (found : tree.node? id = some (.source body))
    (correlated : body.kind = .correlated outer) :
    tree.Visible body.statement outer := by
  have places := (placed id _ found).1
  rw [correlated] at places
  obtain ⟨-, statement, around, source, foundStatement, -, within, foundOuter, encloses⟩ := places
  exact ⟨source, around, ⟨statement, foundStatement, within⟩, foundOuter,
    surrounds_of_enclosesFrom encloses⟩

/-- What a correlated source finally stands for is visible in its subquery. -/
theorem Placed.visible_of_resolveFrom
    {body : Source}
    {outer resolved : NodeId}
    {fuel : Nat}
    (placed : tree.Placed)
    (found : tree.node? id = some (.source body))
    (correlated : body.kind = .correlated outer)
    (ends : tree.resolveFrom fuel outer = .ok resolved) :
    tree.Visible body.statement resolved := by
  induction fuel generalizing id body outer with
  | zero => cases ends
  | succ fuel inductionHypothesis =>
      have here := placed.visible found correlated
      obtain ⟨source, around, declared, foundOuter, above⟩ := here
      unfold resolveFrom at ends
      rw [source_eq_ok.mpr foundOuter] at ends
      cases kind : source.kind with
      | root recordType =>
          simp only [kind] at ends
          cases ends
          exact placed.visible found correlated
      | join parent field direction mode on =>
          simp only [kind] at ends
          cases ends
          exact placed.visible found correlated
      | correlated next =>
          simp only [kind] at ends
          exact (inductionHypothesis foundOuter kind ends).inward ⟨around, declared, above⟩

/-- What a statement refers to is there. -/
theorem Orderly.present_statement
    {body : Statement}
    {other : NodeId}
    (orderly : tree.Orderly)
    (found : tree.node? id = some (.statement body))
    (member : other ∈ (Node.statement body).elders ++ (Node.statement body).lists) :
    tree.contains other = true := by
  have refers : tree.StatementRefers id body := orderly.referring id _ found
  simp only [Node.elders, Node.lists, List.mem_append, Option.mem_toList] at member
  rcases member with parent | ((((((roots | correlations) | selection) | restriction) |
    groupList) | groupRestriction) | orderList) | assignments
  · exact (refers.parent other parent).2.contains
  · obtain ⟨_, _, present, -⟩ := refers.roots other roots
    exact contains_of_node? present
  · obtain ⟨_, _, present, -⟩ := refers.correlations other correlations
    exact contains_of_node? present
  · exact (refers.selection other selection).contains
  · exact (refers.restriction other restriction).contains
  · exact (refers.groupList other groupList).contains
  · exact (refers.groupRestriction other groupRestriction).contains
  · obtain ⟨_, _, present⟩ := refers.orderList other orderList
    exact contains_of_node? present
  · obtain ⟨_, _, present⟩ := refers.assignments other assignments
    exact contains_of_node? present

/-- What a node was made of or made for is older. -/
theorem Orderly.older
    {node : Node}
    {other : NodeId}
    (orderly : tree.Orderly)
    (rostered : tree.Rostered)
    (found : tree.node? id = some node)
    (member : other ∈ node.elders) :
    other.index < id.index := by
  cases node with
  | statement body =>
      have refers : tree.StatementRefers id body := orderly.referring id _ found
      exact (refers.parent other (Option.mem_toList.mp member)).1
  | source body =>
      have places := (orderly.placed id _ found).1
      change other ∈ body.kind.elders at member
      cases kind : body.kind with
      | root recordType =>
          rw [kind] at member
          cases member
      | join parent field direction mode on =>
          rw [kind] at member places
          rw [List.mem_singleton.mp member]
          exact places.1
      | correlated outer =>
          rw [kind] at member places
          rw [List.mem_singleton.mp member]
          exact places.1
  | fetch body =>
      rw [List.mem_singleton.mp member]
      exact rostered.older id _ found .fetches body.parent rfl
  | path parent field =>
      rw [List.mem_singleton.mp member]
      exact (orderly.placed id _ found).1
  | treat target asType =>
      rw [List.mem_singleton.mp member]
      exact (orderly.placed id _ found).1
  | expression operator operands => exact (orderly.referring id _ found other member).1
  | order item ascending =>
      rw [List.mem_singleton.mp member]
      exact (orderly.referring id _ found).1
  | assignment target value =>
      have refers := orderly.referring id _ found
      rcases List.mem_cons.mp member with rfl | last
      · exact refers.1.1
      · rw [List.mem_singleton.mp last]
        exact refers.2.1
  | parameter name => cases member
  | literal value => cases member

/-- What a source or a fetch refers to is there. -/
theorem Orderly.present_list
    {node : Node}
    {other : NodeId}
    (orderly : tree.Orderly)
    (found : tree.node? id = some node)
    (member : other ∈ node.lists) :
    tree.contains other = true := by
  cases node with
  | statement body => exact orderly.present_statement found (List.mem_append_right _ member)
  | source body =>
      have refers := orderly.referring id _ found
      have places := orderly.placed id _ found
      simp only [Node.lists, List.mem_cons, List.mem_append, Option.mem_toList] at member
      rcases member with rfl | (condition | join) | fetch
      · exact (orderly.placed.hasStatement found).contains
      · exact (refers.1 other condition).contains
      · obtain ⟨_, _, _, _, _, present, -⟩ := places.2.2 other join
        exact contains_of_node? present
      · obtain ⟨_, present⟩ := refers.2 other fetch
        exact contains_of_node? present
  | fetch body =>
      obtain ⟨_, present⟩ := orderly.referring id _ found other member
      exact contains_of_node? present
  | _ => cases member

/-- Whatever is called, in whatever order and with whatever arguments, and however the
calls end: the tree is well formed. -/
theorem performAll_wellFormed
    (kind : StatementKind)
    (calls : List TreeCall) :
    ((ofKind kind).performAll calls).WellFormed := by
  have reachable : ((ofKind kind).performAll calls).Reachable := ⟨kind, calls, rfl⟩
  have orderly := reachable.orderly
  have rostered := reachable.rostered
  have admitting := reachable.admitting
  refine ⟨?_, ?_, ?_, rostered.roster_eq, ?_, ?_, ?_, ?_, ?_⟩
  · exact Tree.holds_size _
  · intro id node found other member
    rcases List.mem_append.mp member with elder | listed
    · have older := orderly.older rostered found elder
      exact contains_iff.mpr (Nat.lt_trans older (lt_size_of_node? found))
    · exact orderly.present_list found listed
  · exact fun id node found other member => orderly.older rostered found member
  · intro id body found parent field direction mode on isJoin
    have places := (orderly.placed id _ found).1
    rw [isJoin] at places
    obtain ⟨-, above, present, declared, same, -⟩ := places
    exact ⟨above, present, declared, same⟩
  · exact fun id body found => admitting id _ found
  · intro id body found
    have refers : StatementRefers _ id body := orderly.referring id _ found
    refine ⟨refers.selection, refers.restriction, refers.groupList, refers.groupRestriction,
      fun item member => ?_, fun item member => ?_⟩
    · obtain ⟨expression, ascending, present⟩ := refers.orderList item member
      exact ⟨expression, ascending, present, (orderly.referring item _ present).2⟩
    · obtain ⟨target, value, present⟩ := refers.assignments item member
      exact ⟨target, value, present, admitting item _ present,
        (orderly.referring item _ present).2.2⟩
  · exact fun id body found => admitting id _ found
  · intro id body found outer correlated
    refine ⟨orderly.placed.visible found correlated, ?_⟩
    obtain ⟨resolved, source, resolves, present, declared⟩ :=
      orderly.placed.exists_resolveCorrelation found
    refine ⟨resolved, resolves, ⟨source, present, declared⟩, ?_⟩
    unfold resolveCorrelation resolveFrom at resolves
    rw [source_eq_ok.mpr found] at resolves
    simp only [correlated] at resolves
    exact orderly.placed.visible_of_resolveFrom found correlated resolves

end Tree
end QueryGraph
