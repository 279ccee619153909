import QueryGraph.Tree.Basic

/-!
# Building a tree

A tree grows by the operations of this module. Each checks its arguments before
it touches the tree, so a refused operation leaves the tree as it was. In a chain
of field accesses only the first can be refused, since an access makes a node that
may have fields.
-/

namespace QueryGraph

/-- An operation on a tree that may be refused. -/
abbrev Build := EStateM TreeError Tree

namespace Build

/-- Reads the tree. -/
def read (query : Tree -> Except TreeError α) : Build α := do
  match query (← get) with
  | .ok value => return value
  | .error error => throw error

/-- Adds a node and returns its number. -/
def push (node : Node) : Build NodeId := do
  let tree ← get
  set (tree.push node)
  return ⟨tree.size⟩

/-- Changes a node that has to exist and may not be held. -/
def mutate
    (id : NodeId)
    (change : Node -> Except TreeError Node) : Build Unit := do
  let tree ← get
  match tree.node id with
  | .error error => throw error
  | .ok node =>
      if tree.isFrozen id then throw (.frozen id)
      else
        match change node with
        | .ok node => set (tree.replace id node)
        | .error error => throw error

/-- Changes the statement at a node; any other node stays as it is. -/
def mutateStatement
    (id : NodeId)
    (change : Statement -> Statement) : Build Unit :=
  mutate id fun node =>
    match node with
    | .statement body => .ok (.statement (change body))
    | other => .ok other

/-- A statement that accepts changes. -/
def writableStatement (id : NodeId) : Build Statement := do
  let body ← read (·.statement id)
  if (← get).isFrozen id then throw (.frozen id)
  else return body

/-- A statement that accepts changes and has the given clause. -/
def statementWithClause
    (id : NodeId)
    (clause : ClauseKind)
    (kinds : List StatementKind) : Build Statement := do
  let body ← writableStatement id
  if body.kind ∈ kinds then return body
  else throw (.unsupportedClause body.kind clause)

/-- A source that accepts new joins and fetches. -/
def joinableSource (id : NodeId) : Build Source := do
  let body ← read (·.source id)
  if body.isCorrelated then throw (.joinOnCorrelatedSource id)
  else if (← get).isFrozen id then throw (.frozen id)
  else return body

/-- Checks that a node may be used as an expression. -/
def expectExpression (id : NodeId) : Build Unit := do
  let node ← read (·.node id)
  if node.isExpression then return ()
  else throw (.notAnExpression id node.kindName)

/-- Checks that a node may have fields and may be treated as another type. -/
def expectPathParent (id : NodeId) : Build Unit := do
  let node ← read (·.node id)
  if node.isPathLike then return ()
  else throw (.invalidPathParent id node.kindName)

/-- The kinds of statements that select. -/
def selecting : List StatementKind := [.query, .subquery]

/-- Declares a subquery inside a statement. It is compiled only where it is used
as an expression. -/
def subquery (parent : NodeId) : Build NodeId := do
  let _ ← read (·.statement parent)
  push (.statement { kind := .subquery, parent := some parent })

/-- Adds a root source to a statement. -/
def root (statement : NodeId) (recordType : String) : Build NodeId := do
  let _ ← writableStatement statement
  let root ← push (.source { statement := statement, kind := .root recordType })
  mutateStatement statement fun body => { body with roots := body.roots ++ [root] }
  return root

/-- Adds a join to a source. -/
def join
    (parent : NodeId)
    (field : String)
    (direction : JoinDirection)
    (mode : JoinMode) : Build NodeId := do
  let source ← joinableSource parent
  let join ← push (.source {
    statement := source.statement
    kind := .join parent field direction mode none })
  mutate parent fun node =>
    match node with
    | .source body => .ok (.source { body with joins := body.joins ++ [join] })
    | other => .ok other
  return join

/-- Makes a source of an enclosing statement visible inside a subquery. -/
def correlate (subquery outer : NodeId) : Build NodeId := do
  let statement ← writableStatement subquery
  if statement.kind ≠ .subquery then
    throw (.unsupportedClause statement.kind .correlation)
  let source ← read (·.source outer)
  let visible ←
    match statement.parent with
    | some parent => read (·.encloses source.statement parent)
    | none => pure false
  if !visible then throw (.rootOutsideStatement outer subquery)
  let correlated ← push (.source { statement := subquery, kind := .correlated outer })
  mutateStatement subquery fun body =>
    { body with correlations := body.correlations ++ [correlated] }
  return correlated

/-- Declares a fetch under a source or under another fetch. -/
def fetch
    (parent : NodeId)
    (field : String)
    (direction : JoinDirection)
    (collection : CollectionFetch) : Build NodeId := do
  match ← read (·.node parent) with
  | .source _ => let _ ← joinableSource parent
  | .fetch _ => if (← get).isFrozen parent then throw (.frozen parent)
  | other => throw (.notAFetchParent parent other.kindName)
  let fetch ← push (.fetch {
    parent := parent
    field := field
    direction := direction
    collection := collection })
  mutate parent fun node =>
    match node with
    | .source body => .ok (.source { body with fetches := body.fetches ++ [fetch] })
    | .fetch body => .ok (.fetch { body with fetches := body.fetches ++ [fetch] })
    | other => .ok other
  return fetch

/-- Suggests an alias for a source. -/
def setAlias (source : NodeId) (name : String) : Build Unit :=
  mutate source fun node =>
    match node with
    | .source body => .ok (.source { body with aliasHint := some name })
    | other => .error (.notASource source other.kindName)

/-- Gives a join its condition. -/
def setOn (join condition : NodeId) : Build Unit := do
  expectExpression condition
  mutate join fun node =>
    match node with
    | .source body =>
        match body.kind with
        | .join parent field direction mode _ =>
            .ok (.source { body with
              kind := .join parent field direction mode (some condition) })
        | _ => .error (.notAJoin join node.kindName)
    | other => .error (.notAJoin join other.kindName)

/-- Accesses a field. -/
def access (parent : NodeId) (field : String) : Build NodeId := do
  expectPathParent parent
  push (.path parent field)

/-- Accesses a chain of fields. -/
def accessAll : (parent : NodeId) -> (fields : List String) -> Build NodeId
  | parent, [] => return parent
  | parent, field :: fields => do accessAll (← access parent field) fields

/-- Sees a path or source as a more specific record type. -/
def treat (target : NodeId) (asType : String) : Build NodeId := do
  expectPathParent target
  push (.treat target asType)

/-- Adds a named placeholder. -/
def namedParameter (name : String) : Build NodeId :=
  push (.parameter (some name))

/-- Adds a positional placeholder. -/
def anonymousParameter : Build NodeId :=
  push (.parameter none)

/-- Adds a constant. -/
def literal (value : Literal) : Build NodeId :=
  push (.literal value)

/-- Applies an operator. -/
def expression
    (operator : Operator)
    (operands : List NodeId) : Build NodeId := do
  operands.forM expectExpression
  push (.expression operator operands)

/-- Compares two expressions. -/
def eq (left right : NodeId) : Build NodeId :=
  expression .eq [left, right]

/-- The conjunction of expressions. -/
def and (operands : List NodeId) : Build NodeId :=
  expression .and operands

/-- Adds to the selection of a statement. -/
def select (statement expression : NodeId) : Build Unit := do
  let _ ← statementWithClause statement .selection selecting
  expectExpression expression
  mutateStatement statement fun body =>
    { body with selection := body.selection ++ [expression] }

/-- A predicate, joined by conjunction to the one that was there before. -/
def combine (existing : Option NodeId) (predicate : NodeId) : Build NodeId :=
  match existing with
  | some previous => Build.and [previous, predicate]
  | none => return predicate

/-- Restricts a statement; repeated restrictions all hold. -/
def restrict (statement predicate : NodeId) : Build Unit := do
  let existing := (← writableStatement statement).restriction
  expectExpression predicate
  let combined ← combine existing predicate
  mutateStatement statement fun body => { body with restriction := some combined }

/-- Adds to the grouping of a statement. -/
def groupBy (statement expression : NodeId) : Build Unit := do
  let _ ← statementWithClause statement .groupBy selecting
  expectExpression expression
  mutateStatement statement fun body =>
    { body with groupList := body.groupList ++ [expression] }

/-- Restricts the groups of a statement; repeated restrictions all hold. -/
def having (statement predicate : NodeId) : Build Unit := do
  let existing := (← statementWithClause statement .having selecting).groupRestriction
  expectExpression predicate
  let combined ← combine existing predicate
  mutateStatement statement fun body => { body with groupRestriction := some combined }

/-- Adds to the order of a query. -/
def orderBy
    (statement expression : NodeId)
    (ascending : Bool) : Build NodeId := do
  let _ ← statementWithClause statement .orderBy [.query]
  expectExpression expression
  let order ← push (.order expression ascending)
  mutateStatement statement fun body =>
    { body with orderList := body.orderList ++ [order] }
  return order

/-- Assigns a value to a path in an update. -/
def assign (statement target value : NodeId) : Build NodeId := do
  let _ ← statementWithClause statement .assignment [.update]
  match ← read (·.node target) with
  | .path _ _ => pure ()
  | other => throw (.invalidPathParent target other.kindName)
  expectExpression value
  let assignment ← push (.assignment target value)
  mutateStatement statement fun body =>
    { body with assignments := body.assignments ++ [assignment] }
  return assignment

/-- Says whether a statement drops duplicates. -/
def distinct (statement : NodeId) (distinct : Bool) : Build Unit := do
  let _ ← statementWithClause statement .distinct selecting
  mutateStatement statement fun body => { body with distinct := distinct }

end Build
end QueryGraph
