import QueryGraph.Join
import QueryGraph.Tree.Literal
import QueryGraph.Tree.Operator

/-!
# Nodes of a query tree

Statements, the sources they read from, and the expressions in their clauses are
nodes that refer to one another by number. A subquery is both a statement and an
expression.
-/

namespace QueryGraph

/-- The number of a node in its tree. -/
structure NodeId where
  index : Nat
  deriving DecidableEq, Repr, Inhabited

/-- The text of a node number. -/
def NodeId.toText (node : NodeId) : String := "#" ++ toString node.index

/-- What a statement does. -/
inductive StatementKind
  | query
  | subquery
  | update
  | delete
  deriving DecidableEq, Repr, Inhabited

namespace StatementKind

/-- The name of a kind. -/
def name : StatementKind -> String
  | .query => "query"
  | .subquery => "subquery"
  | .update => "update"
  | .delete => "delete"

/-- Every kind. -/
def all : List StatementKind := [.query, .subquery, .update, .delete]

/-- Reads a kind by its name. -/
def ofName? (text : String) : Option StatementKind :=
  all.find? fun kind => kind.name == text

/-- Every statement but a subquery stands at the top. -/
def isTopLevel : StatementKind -> Bool
  | .subquery => false
  | .query | .update | .delete => true

end StatementKind

/-- A statement with its sources and clauses. -/
structure Statement where
  kind : StatementKind
  /-- The statement around a subquery. -/
  parent : Option NodeId := none
  roots : List NodeId := []
  correlations : List NodeId := []
  selection : List NodeId := []
  restriction : Option NodeId := none
  groupList : List NodeId := []
  groupRestriction : Option NodeId := none
  orderList : List NodeId := []
  assignments : List NodeId := []
  distinct : Bool := false
  deriving DecidableEq, Repr

/-- Where the records of a source come from. -/
inductive SourceKind
  | root (recordType : String)
  | join
      (parent : NodeId)
      (field : String)
      (direction : JoinDirection)
      (mode : JoinMode)
      (on : Option NodeId)
  /-- A source of an enclosing statement, made visible inside a subquery. -/
  | correlated (outer : NodeId)
  deriving DecidableEq, Repr

/-- A source of a statement. -/
structure Source where
  statement : NodeId
  kind : SourceKind
  aliasHint : Option String := none
  joins : List NodeId := []
  fetches : List NodeId := []
  deriving DecidableEq, Repr

namespace Source

/-- Whether the source is a join. -/
def isJoin (source : Source) : Bool :=
  match source.kind with
  | .join _ _ _ _ _ => true
  | _ => false

/-- Whether the source stands for one of an enclosing statement. -/
def isCorrelated (source : Source) : Bool :=
  match source.kind with
  | .correlated _ => true
  | _ => false

/-- The condition of a join. -/
def condition? (source : Source) : Option NodeId :=
  match source.kind with
  | .join _ _ _ _ on => on
  | _ => none

end Source

/-- A relation whose records are loaded together with those of its parent. -/
structure Fetch where
  parent : NodeId
  field : String
  direction : JoinDirection
  collection : CollectionFetch
  fetches : List NodeId := []
  deriving DecidableEq, Repr

/-- A node of a query tree. -/
inductive Node
  | statement (statement : Statement)
  | source (source : Source)
  | fetch (fetch : Fetch)
  /-- A field of a source, of a treated path or of another path. -/
  | path
      (parent : NodeId)
      (field : String)
  /-- A path or source seen as a more specific record type. -/
  | treat
      (target : NodeId)
      (asType : String)
  /-- A placeholder. Without a name it is positional. -/
  | parameter (name : Option String)
  | literal (value : Literal)
  | expression
      (operator : Operator)
      (operands : List NodeId)
  | order
      (expression : NodeId)
      (ascending : Bool)
  | assignment
      (target : NodeId)
      (value : NodeId)
  deriving DecidableEq, Repr

namespace Node

/-- The name of the kind of a node. -/
def kindName : Node -> String
  | .statement _ => "statement"
  | .source _ => "source"
  | .fetch _ => "fetch"
  | .path _ _ => "path"
  | .treat _ _ => "treat"
  | .parameter _ => "parameter"
  | .literal _ => "literal"
  | .expression _ _ => "expression"
  | .order _ _ => "order"
  | .assignment _ _ => "assignment"

/-- Whether a node addresses a value that is reached from a source. -/
def isPathLike : Node -> Bool
  | .source _ | .path _ _ | .treat _ _ => true
  | _ => false

/-- Whether a node may stand as an operand, a selection or a predicate. -/
def isExpression : Node -> Bool
  | .statement body => body.kind = .subquery
  | .source _ | .path _ _ | .treat _ _ => true
  | .parameter _ | .literal _ | .expression _ _ => true
  | .fetch _ | .order _ _ | .assignment _ _ => false

end Node
end QueryGraph
