import QueryGraph.Tree.Basic

/-!
# Declared sources and paths

The sources of a statement form trees of joins and fetches, and a path is a chain
that ends at a source. Here these shapes are read off the node table once, so that
later definitions can recurse on them. A node refers only to nodes that were there
when it was made, or that were added below it later; the number of nodes therefore
bounds the depth of every shape.
-/

namespace QueryGraph

/-- A fetch with the fetches below it. -/
inductive FetchTree
  | mk
      (id : NodeId)
      (field : String)
      (direction : JoinDirection)
      (collection : CollectionFetch)
      (nested : List FetchTree)
  deriving Repr

namespace FetchTree

/-- The number of the fetch. -/
def id : FetchTree -> NodeId
  | .mk id _ _ _ _ => id

/-- The relation that is fetched. -/
def field : FetchTree -> String
  | .mk _ field _ _ _ => field

/-- The direction of the fetch. -/
def direction : FetchTree -> JoinDirection
  | .mk _ _ direction _ _ => direction

/-- The extent of the fetch. -/
def collection : FetchTree -> CollectionFetch
  | .mk _ _ _ collection _ => collection

/-- The fetches below. -/
def nested : FetchTree -> List FetchTree
  | .mk _ _ _ _ nested => nested

/-- The numbers of a fetch and of the fetches below it, each before those below. -/
def ids : FetchTree -> List NodeId
  | .mk id _ _ _ nested => id :: nestedIds nested
where
  /-- The numbers in a list of fetches. -/
  nestedIds : List FetchTree -> List NodeId
    | [] => []
    | fetch :: fetches => fetch.ids ++ nestedIds fetches

/-- Reads the fetches that begin at a node. -/
def ofNode (tree : Tree) : (fuel : Nat) -> NodeId -> Except TreeError FetchTree
  | 0, id => .error (.unknownNode id)
  | fuel + 1, id =>
      match tree.node id with
      | .error error => .error error
      | .ok (.fetch body) => do
          let nested ← body.fetches.mapM (ofNode tree fuel)
          return .mk id body.field body.direction body.collection nested
      | .ok other => .error (.notAFetchParent id other.kindName)

end FetchTree

/-- A source with the fetches and joins below it. -/
inductive SourceTree
  | mk
      (id : NodeId)
      (source : Source)
      (fetches : List FetchTree)
      (joins : List SourceTree)
  deriving Repr

namespace SourceTree

/-- The number of the source. -/
def id : SourceTree -> NodeId
  | .mk id _ _ _ => id

/-- The source itself. -/
def source : SourceTree -> Source
  | .mk _ source _ _ => source

/-- The fetches of the source. -/
def fetches : SourceTree -> List FetchTree
  | .mk _ _ fetches _ => fetches

/-- The joins of the source. -/
def joins : SourceTree -> List SourceTree
  | .mk _ _ _ joins => joins

/-- The numbers of a source, of its fetches and of its joins, in that order. -/
def ids : SourceTree -> List NodeId
  | .mk id _ fetches joins => id :: (fetches.flatMap FetchTree.ids ++ joinIds joins)
where
  /-- The numbers in a list of sources. -/
  joinIds : List SourceTree -> List NodeId
    | [] => []
    | join :: joins => join.ids ++ joinIds joins

/-- The conditions of a source and of the joins below it, each before those below. -/
def conditions : SourceTree -> List NodeId
  | .mk _ source _ joins => source.condition?.toList ++ joinConditions joins
where
  /-- The conditions in a list of sources. -/
  joinConditions : List SourceTree -> List NodeId
    | [] => []
    | join :: joins => join.conditions ++ joinConditions joins

/-- Reads the joins that begin at a source. -/
def ofNode (tree : Tree) : (fuel : Nat) -> NodeId -> Except TreeError SourceTree
  | 0, id => .error (.unknownNode id)
  | fuel + 1, id =>
      match tree.source id with
      | .error error => .error error
      | .ok body => do
          let fetches ← body.fetches.mapM (FetchTree.ofNode tree (tree.size + 1))
          let joins ← body.joins.mapM (ofNode tree fuel)
          return .mk id body fetches joins

end SourceTree

/-- How a path is reached. -/
inductive Route
  /-- A root, or a source of an enclosing statement. -/
  | origin (source : NodeId)
  | join
      (parent : Route)
      (source : NodeId)
      (field : String)
      (direction : JoinDirection)
  | field
      (parent : Route)
      (name : String)
  | treat
      (target : Route)
      (asType : String)
  deriving DecidableEq, Repr

namespace Route

/-- Reads the way to a path-like node. -/
def ofNode (tree : Tree) : (fuel : Nat) -> NodeId -> Except TreeError Route
  | 0, id => .error (.unknownNode id)
  | fuel + 1, id =>
      match tree.node id with
      | .error error => .error error
      | .ok (.source body) =>
          match body.kind with
          | .join parent relation direction _ _ =>
              (ofNode tree fuel parent).map fun route => .join route id relation direction
          | _ => .ok (.origin id)
      | .ok (.path parent name) => (ofNode tree fuel parent).map fun route => .field route name
      | .ok (.treat target asType) =>
          (ofNode tree fuel target).map fun route => .treat route asType
      | .ok other => .error (.invalidPathParent id other.kindName)

end Route

/-- The nodes that a path passes after its own node, down to and including its
source. -/
structure PathChain where
  below : List NodeId
  sourceId : NodeId
  source : Source
  deriving DecidableEq, Repr

namespace PathChain

/-- Reads the chain of a path-like node. -/
def ofNode (tree : Tree) : (fuel : Nat) -> NodeId -> Except TreeError PathChain
  | 0, id => .error (.unknownNode id)
  | fuel + 1, id =>
      let after (next : NodeId) : Except TreeError PathChain :=
        (ofNode tree fuel next).map fun chain => { chain with below := next :: chain.below }
      match tree.node id with
      | .error error => .error error
      | .ok (.source body) => .ok ⟨[], id, body⟩
      | .ok (.path parent _) => after parent
      | .ok (.treat target _) => after target
      | .ok other => .error (.invalidPathParent id other.kindName)

end PathChain

namespace Tree

/-- The joins and fetches declared below a source. -/
def sourceTree (tree : Tree) (id : NodeId) : Except TreeError SourceTree :=
  SourceTree.ofNode tree (tree.size + 1) id

/-- The fetches declared below a source. -/
def fetchTrees (tree : Tree) (id : NodeId) : Except TreeError (List FetchTree) := do
  (← tree.source id).fetches.mapM (FetchTree.ofNode tree (tree.size + 1))

/-- How a path-like node is reached. -/
def route (tree : Tree) (id : NodeId) : Except TreeError Route :=
  Route.ofNode tree (tree.size + 1) id

/-- The nodes that a path passes on the way to its source. -/
def pathChain (tree : Tree) (id : NodeId) : Except TreeError PathChain :=
  PathChain.ofNode tree (tree.size + 1) id

end Tree
end QueryGraph
