import QueryGraph.Graph.Declarations
import QueryGraph.Parameters
import QueryGraph.Path.Allocator
import QueryGraph.Tree.Freeze

/-!
# Walking a tree

A compilation begins with a walk from the top statement. The walk holds every node
that it meets, builds the sources of a statement when it enters the statement for
the first time, and records paths, placeholders and constants in the order in which
it meets them.
-/

namespace QueryGraph

/-- What a walk has gathered so far. -/
structure Walk where
  tree : Tree
  /-- The holds taken so far. -/
  guard : Guard
  allocator : PathAllocator := .primary
  /-- The join graph with the vertices of the declared sources. -/
  sources : GraphState := {}
  /-- The roots of every statement entered so far. -/
  statementRoots : List (NodeId × List VertexId) := []
  parameters : ParameterRegistry := {}
  literals : List (NodeId × Literal) := []
  /-- The open statements, innermost first. -/
  enclosing : List NodeId := []
  deriving DecidableEq, Repr

/-- A step of a walk, which may stop it. -/
abbrev Walking := EStateM CompileError Walk

namespace Walking

/-- Reads the tree. -/
def read (query : Tree -> Except TreeError α) : Walking α := do
  match query (← get).tree with
  | .ok value => return value
  | .error error => throw (.tree error)

/-- Takes a hold on a node. -/
def hold (node : NodeId) : Walking Unit := fun walk =>
  match walk.guard.freeze node walk.tree with
  | .ok guard tree => .ok () { walk with guard := guard, tree := tree }
  | .error error tree => .error (.freeze error) { walk with tree := tree }

/-- Takes a hold on each of several nodes. -/
def holdAll (nodes : List NodeId) : Walking Unit := nodes.forM hold

/-- Performs an operation on the allocator. -/
def onAllocator (action : EStateM CompileError PathAllocator α) : Walking α := fun walk =>
  match action walk.allocator with
  | .ok value allocator => .ok value { walk with allocator := allocator }
  | .error error allocator => .error error { walk with allocator := allocator }

/-- Performs an operation on the join graph. -/
def onSources (action : Graphing α) : Walking α := fun walk =>
  match action walk.sources with
  | .ok value sources => .ok value { walk with sources := sources }
  | .error error sources => .error error { walk with sources := sources }

/-- Performs an operation on the placeholders. -/
def onParameters (action : EStateM CompileError ParameterRegistry α) : Walking α := fun walk =>
  match action walk.parameters with
  | .ok value parameters => .ok value { walk with parameters := parameters }
  | .error error parameters => .error error { walk with parameters := parameters }

/-- Performs a step inside an entry of the path stack. -/
def within (entry : StackEntry) (step : Walking Unit) : Walking Unit := do
  onAllocator (PathAllocator.push entry)
  step
  let _ ← onAllocator PathAllocator.pop

/-- Holds a root and everything declared below it. On the first visit of its
statement the root is also built, and its vertex is returned. -/
def visitRoot
    (schema : Schema)
    (isFirst : Bool)
    (root : NodeId) : Walking (List VertexId) := do
  let source ← read (·.sourceTree root)
  holdAll source.ids
  if isFirst then return [← onSources (Graphing.buildRoot schema source)]
  else return []

/-- Gives a correlated source the vertex of the source that it stands for. -/
def visitCorrelation (statement correlated : NodeId) : Walking Unit := do
  hold correlated
  let outer ← read (·.resolveCorrelation correlated)
  match (← get).sources.declared.find? outer with
  | none => throw (.tree (.rootOutsideStatement outer statement))
  | some vertex => onSources (Graphing.declare correlated vertex)

/-- Enters the sources of a statement. -/
def visitSources
    (schema : Schema)
    (id : NodeId)
    (statement : Statement) : Walking Unit := do
  let isFirst := !(← get).statementRoots.any fun entry => entry.1 = id
  if statement.roots.isEmpty && statement.correlations.isEmpty then throw (.noRoots id)
  let roots ← statement.roots.mapM (visitRoot schema isFirst)
  statement.correlations.forM (visitCorrelation id)
  if isFirst then
    modify fun walk =>
      { walk with statementRoots := walk.statementRoots ++ [(id, roots.flatten)] }

/-- Records the occurrence of a path. Its source has to belong to an open
statement. -/
def visitPath (id : NodeId) : Walking Unit :=
  within (.node id) do
    let chain ← read (·.pathChain id)
    holdAll chain.below
    let enclosing := (← get).enclosing
    if chain.source.statement ∉ enclosing then
      throw (.tree
        (.rootOutsideStatement chain.sourceId (enclosing.head?.getD chain.sourceId)))
    let _ ← onAllocator PathAllocator.allocate

/-- Records the occurrence of a placeholder. -/
def visitParameter (id : NodeId) (name : Option String) : Walking Unit :=
  within (.node id) do
    match name with
    | some name => onParameters (ParameterRegistry.registerNamed name id)
    | none => let _ ← onParameters (ParameterRegistry.registerAnonymous id)

/-- Records the occurrence of a constant. -/
def visitLiteral (id : NodeId) (value : Literal) : Walking Unit :=
  within (.node id) do
    modify fun walk => { walk with literals := walk.literals ++ [(id, value)] }

/-- Visits an expression, given how a subquery is visited. What an expression
consists of is older than the expression, so the number of nodes bounds the
depth. -/
def visitExpression
    (subquery : NodeId -> Walking Unit) :
    (fuel : Nat) -> NodeId -> Walking Unit
  | 0, _ => throw .unfounded
  | fuel + 1, id => do
      let node ← read (·.node id)
      match node with
      | .statement body =>
          if body.kind = .subquery then subquery id
          else
            hold id
            throw (.tree (.notAnExpression id node.kindName))
      | .source _ | .path _ _ | .treat _ _ =>
          hold id
          visitPath id
      | .parameter name =>
          hold id
          visitParameter id name
      | .literal value =>
          hold id
          visitLiteral id value
      | .expression operator operands =>
          hold id
          within (if operator = .tuple then .compound id else .node id)
            (operands.forM (visitExpression subquery fuel))
      | .order expression _ =>
          hold id
          within (.node id) (visitExpression subquery fuel expression)
      | .assignment target value =>
          hold id
          within (.node id) do
            visitExpression subquery fuel target
            visitExpression subquery fuel value
      | .fetch _ =>
          hold id
          throw (.tree (.notAnExpression id node.kindName))

/-- The conditions of the joins of a statement. -/
def conditions (statement : Statement) : Walking (List NodeId) := do
  let sources ← read fun tree => statement.roots.mapM tree.sourceTree
  return sources.flatMap SourceTree.conditions

/-- The expressions of a clause of a statement. -/
def clauseItems (statement : Statement) : Clause -> Walking (List NodeId)
  | .selection => return statement.selection
  | .on => conditions statement
  | .assignments => return statement.assignments
  | .restriction => return statement.restriction.toList
  | .groupList => return statement.groupList
  | .groupRestriction => return statement.groupRestriction.toList
  | .orderList => return statement.orderList

/-- The clauses of a statement in the order in which they are visited. -/
def clauses : StatementKind -> List Clause
  | .query =>
      [.selection, .on, .restriction, .groupList, .groupRestriction, .orderList]
  | .subquery => [.selection, .on, .restriction, .groupList, .groupRestriction]
  | .update => [.on, .assignments, .restriction]
  | .delete => [.on, .restriction]

/-- Visits a clause, given how an expression is visited. -/
def visitClause
    (expression : NodeId -> Walking Unit)
    (statement : Statement)
    (clause : Clause) : Walking Unit :=
  within (.clause clause) do
    (← clauseItems statement clause).forM expression

/-- Visits a statement. A statement is never open twice, so the number of nodes
bounds the nesting. -/
def visitStatement
    (schema : Schema)
    (bound : Nat) :
    (fuel : Nat) -> NodeId -> Walking Unit
  | 0, _ => throw .unfounded
  | fuel + 1, id => do
      if id ∈ (← get).enclosing then throw (.recursiveSubquery id)
      hold id
      let statement ← read (·.statement id)
      within (.statement id statement.kind) do
        modify fun walk => { walk with enclosing := id :: walk.enclosing }
        visitSources schema id statement
        (clauses statement.kind).forM
          (visitClause (visitExpression (visitStatement schema bound fuel) bound) statement)
        modify fun walk => { walk with enclosing := walk.enclosing.tail }

/-- Walks a whole tree. -/
def walkTree (schema : Schema) : Walking Unit := do
  let size := (← get).tree.size
  visitStatement schema (size + 1) (size + 1) Tree.top

end Walking
end QueryGraph
