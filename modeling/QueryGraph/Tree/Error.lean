import QueryGraph.Tree.Node

/-!
# Refused changes and holds

What a tree refuses, each refusal with the nodes it is about.
-/

namespace QueryGraph

/-- The token of one compilation, under which it holds nodes. -/
structure Owner where
  number : Nat
  deriving DecidableEq, Repr, Inhabited

/-- The clauses that only some kinds of statements accept. -/
inductive ClauseKind
  | correlation
  | selection
  | groupBy
  | having
  | orderBy
  | assignment
  | distinct
  deriving DecidableEq, Repr

/-- The name of a clause. -/
def ClauseKind.name : ClauseKind -> String
  | .correlation => "correlation"
  | .selection => "selection"
  | .groupBy => "group by"
  | .having => "having"
  | .orderBy => "order by"
  | .assignment => "assignment"
  | .distinct => "distinct"

/-- Why a tree refuses a change or a look-up. -/
inductive TreeError
  | frozen (node : NodeId)
  | unknownNode (node : NodeId)
  | notASource
      (node : NodeId)
      (found : String)
  | notAJoin
      (node : NodeId)
      (found : String)
  | notAStatement
      (node : NodeId)
      (found : String)
  | notAFetchParent
      (node : NodeId)
      (found : String)
  | invalidPathParent
      (node : NodeId)
      (found : String)
  | notAnExpression
      (node : NodeId)
      (found : String)
  | joinOnCorrelatedSource (node : NodeId)
  | rootOutsideStatement
      (source : NodeId)
      (statement : NodeId)
  | unsupportedClause
      (kind : StatementKind)
      (clause : ClauseKind)
  deriving DecidableEq, Repr

/-- What a found node is, said of a node number. -/
private def foundText (node : NodeId) (found : String) : String :=
  "Node " ++ node.toText ++ " is a " ++ found

/-- The wording of a refusal. -/
def TreeError.message : TreeError -> String
  | .frozen node => "Node " ++ node.toText ++ " is frozen by an active compilation"
  | .unknownNode node => "Node " ++ node.toText ++ " does not exist in this tree"
  | .notASource node found => foundText node found ++ ", expected a source"
  | .notAJoin node found => foundText node found ++ ", expected a join"
  | .notAStatement node found => foundText node found ++ ", expected a statement"
  | .notAFetchParent node found =>
      foundText node found ++ ", fetches hang off sources or fetches"
  | .invalidPathParent node found =>
      foundText node found ++ ", paths hang off sources, paths or treats"
  | .notAnExpression node found =>
      foundText node found ++ " and cannot be used as an expression"
  | .joinOnCorrelatedSource node =>
      "Correlated source " ++ node.toText ++ " cannot declare joins or fetches"
  | .rootOutsideStatement source statement =>
      "Source " ++ source.toText ++ " is not visible from statement " ++ statement.toText
  | .unsupportedClause kind clause =>
      "A " ++ kind.name ++ " statement does not accept a " ++ clause.name ++ " clause"

/-- Why a hold cannot be taken or given back. -/
inductive FreezeError
  | frozenByOther
      (node : NodeId)
      (owner : Owner)
  | notFrozen (node : NodeId)
  | notOwner
      (node : NodeId)
      (owner : Owner)
      (requester : Owner)
  | unknownNode (node : NodeId)
  deriving DecidableEq, Repr

/-- The wording of a refused hold. -/
def FreezeError.message : FreezeError -> String
  | .frozenByOther node owner =>
      "Node " ++ node.toText ++ " is frozen by compilation " ++ toString owner.number
  | .notFrozen node => "Node " ++ node.toText ++ " is not frozen"
  | .notOwner node owner requester =>
      "Node " ++ node.toText ++ " is frozen by compilation " ++ toString owner.number ++
        ", not " ++ toString requester.number
  | .unknownNode node => "Node " ++ node.toText ++ " does not exist in this tree"

end QueryGraph
