import QueryGraph.Tree.Error

/-!
# Query trees

A tree is a table of nodes together with a table of holds, one for each node. The
first node is the top statement. Nodes are only ever added at the end, so the
number of a node never changes its meaning.
-/

namespace QueryGraph

/-- The hold on a node: who holds it, and how many times. -/
structure Hold where
  owner : Option Owner := none
  count : Nat := 0
  deriving DecidableEq, Repr, Inhabited

/-- A query tree. -/
structure Tree where
  nodes : Array Node
  holds : Array Hold
  /-- Every node has its hold. -/
  holds_size : holds.size = nodes.size
  deriving DecidableEq, Repr

namespace Tree

/-- The number of nodes. -/
def size (tree : Tree) : Nat := tree.nodes.size

/-- The number of the top statement. -/
def top : NodeId := ⟨0⟩

/-- A tree that consists of an empty top statement. -/
def ofKind (kind : StatementKind) : Tree where
  nodes := #[.statement { kind := kind }]
  holds := #[{}]
  holds_size := rfl

@[simp] theorem size_ofKind (kind : StatementKind) : (ofKind kind).size = 1 := rfl

/-- Whether a node exists. -/
def contains (tree : Tree) (node : NodeId) : Bool :=
  node.index < tree.size

/-- Looks up a node. -/
def node? (tree : Tree) (node : NodeId) : Option Node :=
  tree.nodes[node.index]?

/-- The hold on a node. A node that does not exist is not held. -/
def hold (tree : Tree) (node : NodeId) : Hold :=
  tree.holds[node.index]?.getD {}

/-- Who holds a node. -/
def frozenBy (tree : Tree) (node : NodeId) : Option Owner :=
  (tree.hold node).owner

/-- Whether a node is held by anyone. -/
def isFrozen (tree : Tree) (node : NodeId) : Bool :=
  (tree.frozenBy node).isSome

/-- A node that has to exist. -/
def node (tree : Tree) (node : NodeId) : Except TreeError Node :=
  match tree.node? node with
  | some found => .ok found
  | none => .error (.unknownNode node)

/-- A node that has to be a statement. -/
def statement (tree : Tree) (id : NodeId) : Except TreeError Statement :=
  match tree.node id with
  | .ok (.statement body) => .ok body
  | .ok other => .error (.notAStatement id other.kindName)
  | .error error => .error error

/-- A node that has to be a source. -/
def source (tree : Tree) (id : NodeId) : Except TreeError Source :=
  match tree.node id with
  | .ok (.source body) => .ok body
  | .ok other => .error (.notASource id other.kindName)
  | .error error => .error error

/-- Follows correlations. A correlated source refers to an earlier node, so the
number of nodes bounds the steps. -/
def resolveFrom (tree : Tree) : (fuel : Nat) -> NodeId -> Except TreeError NodeId
  | 0, id => .error (.unknownNode id)
  | fuel + 1, id =>
      match tree.source id with
      | .error error => .error error
      | .ok body =>
          match body.kind with
          | .correlated outer => tree.resolveFrom fuel outer
          | _ => .ok id

/-- The root or join that a source finally stands for. -/
def resolveCorrelation (tree : Tree) (id : NodeId) : Except TreeError NodeId :=
  tree.resolveFrom (tree.size + 1) id

/-- Climbs from a statement to the statements around it. -/
def enclosesFrom
    (tree : Tree)
    (ancestor : NodeId) :
    (fuel : Nat) -> NodeId -> Except TreeError Bool
  | 0, id => .error (.unknownNode id)
  | fuel + 1, id =>
      if id = ancestor then .ok true
      else
        match tree.statement id with
        | .error error => .error error
        | .ok body =>
            match body.parent with
            | none => .ok false
            | some parent => tree.enclosesFrom ancestor fuel parent

/-- Whether a statement is another one or encloses it. -/
def encloses
    (tree : Tree)
    (ancestor : NodeId)
    (id : NodeId) : Except TreeError Bool :=
  tree.enclosesFrom ancestor (tree.size + 1) id

/-- The numbers of all nodes. -/
def ids (tree : Tree) : List NodeId :=
  (List.range tree.size).map NodeId.mk

/-- The numbers of all nodes that somebody holds. -/
def frozenIds (tree : Tree) : List NodeId :=
  tree.ids.filter tree.isFrozen

/-- Adds a node that nobody holds. -/
def push (tree : Tree) (node : Node) : Tree where
  nodes := tree.nodes.push node
  holds := tree.holds.push {}
  holds_size := by simp [tree.holds_size]

/-- Replaces a node. -/
def replace
    (tree : Tree)
    (id : NodeId)
    (node : Node) : Tree where
  nodes := tree.nodes.setIfInBounds id.index node
  holds := tree.holds
  holds_size := by simp [tree.holds_size]

/-- Replaces the hold on a node. -/
def setHold
    (tree : Tree)
    (id : NodeId)
    (hold : Hold) : Tree where
  nodes := tree.nodes
  holds := tree.holds.setIfInBounds id.index hold
  holds_size := by simp [tree.holds_size]

@[simp] theorem nodes_setHold
    (tree : Tree)
    (id : NodeId)
    (hold : Hold) :
    (tree.setHold id hold).nodes = tree.nodes := rfl

@[simp] theorem holds_replace
    (tree : Tree)
    (id : NodeId)
    (node : Node) :
    (tree.replace id node).holds = tree.holds := rfl

@[simp] theorem size_push (tree : Tree) (node : Node) :
    (tree.push node).size = tree.size + 1 := by
  simp [size, push]

@[simp] theorem size_replace
    (tree : Tree)
    (id : NodeId)
    (node : Node) :
    (tree.replace id node).size = tree.size := by
  simp [size, replace]

@[simp] theorem size_setHold
    (tree : Tree)
    (id : NodeId)
    (hold : Hold) :
    (tree.setHold id hold).size = tree.size := rfl

end Tree
end QueryGraph
