import QueryGraph.Tree.Node

/-!
# Path identities

The same path node may occur several times in a tree, because nodes are shared. An
occurrence is addressed by the statements, clauses and expressions around it,
together with how often the path node has occurred before.
-/

namespace QueryGraph

/-- The clauses of a statement that hold expressions. -/
inductive Clause
  | selection
  | on
  | assignments
  | restriction
  | groupList
  | groupRestriction
  | orderList
  deriving DecidableEq, Repr

namespace Clause

/-- The name of a clause. -/
def name : Clause -> String
  | .selection => "selection"
  | .on => "on"
  | .assignments => "assignments"
  | .restriction => "restriction"
  | .groupList => "group_list"
  | .groupRestriction => "group_restriction"
  | .orderList => "order_list"

/-- Every clause. -/
def all : List Clause :=
  [.selection, .on, .assignments, .restriction, .groupList, .groupRestriction, .orderList]

/-- Reads a clause by its name. -/
def ofName? (text : String) : Option Clause :=
  all.find? fun clause => clause.name == text

end Clause

/-- One level of the surroundings of an occurrence. -/
inductive StackEntry
  | statement
      (node : NodeId)
      (kind : StatementKind)
  | clause (clause : Clause)
  /-- A tuple, whose members count as selected where the tuple does. -/
  | compound (node : NodeId)
  | node (node : NodeId)
  deriving DecidableEq, Repr

namespace StackEntry

/-- The text of an entry. -/
def toText : StackEntry -> String
  | .statement id kind => kind.name ++ id.toText
  | .clause kind => kind.name
  | .compound id => "tuple" ++ id.toText
  | .node id => id.toText

/-- Whether an entry is a statement. -/
def isStatement : StackEntry -> Bool
  | .statement _ _ => true
  | _ => false

end StackEntry

/-- The identity of an occurrence of a path. -/
structure PathIdentity where
  /-- The path node. -/
  node : NodeId
  /-- What surrounds the path, innermost first. -/
  around : List StackEntry
  /-- How many occurrences of the node came before. -/
  position : Nat
  deriving DecidableEq, Repr

namespace PathIdentity

/-- The path and what surrounds it, innermost first. -/
def stack (identity : PathIdentity) : List StackEntry :=
  .node identity.node :: identity.around

/-- Whether the path stands directly in the selection of a query, possibly inside
one tuple. -/
def isDirectlySelected (identity : PathIdentity) : Bool :=
  match identity.around with
  | .clause .selection :: .statement _ .query :: _ => true
  | .compound _ :: .clause .selection :: .statement _ .query :: _ => true
  | _ => false

/-- The text of an identity: the entries from the outermost inwards, and the
position. -/
def toText (identity : PathIdentity) : String :=
  "/".intercalate (identity.stack.reverse.map StackEntry.toText) ++
    "@" ++ toString identity.position

end PathIdentity
end QueryGraph
