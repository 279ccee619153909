import QueryGraph.Config
import QueryGraph.Graph.Basic

/-!
# Numbering the vertices of a result

The used vertices are numbered in the order in which a walk from the roots meets
them, each before the vertices below it. A number and a suggested alias determine
the alias.
-/

namespace QueryGraph
namespace JoinGraph

/-- The vertices below and including a vertex, each before those below it. Children
come after their parents, so the number of vertices bounds the depth. -/
def descend (graph : JoinGraph) : (fuel : Nat) -> VertexId -> List VertexId
  | 0, _ => []
  | fuel + 1, id => id :: (graph.children id).flatMap (graph.descend fuel)

/-- The vertices below some roots, in the order of the walk. -/
def preorder (graph : JoinGraph) (roots : List VertexId) : List VertexId :=
  roots.flatMap (graph.descend graph.size)

/-- Whether a vertex is used. -/
def isUsed (graph : JoinGraph) (id : VertexId) : Bool :=
  (graph.vertex? id).any Vertex.used

/-- The used vertices below some roots, in the order of the walk. -/
def usedPreorder (graph : JoinGraph) (roots : List VertexId) : List VertexId :=
  (graph.preorder roots).filter graph.isUsed

/-- The alias of a vertex with a number. A suggested alias stands alone on a vertex
that may be shared, and follows the prefix on any other. -/
def aliasText
    (config : CompilerConfig)
    (vertex : Vertex)
    (identifier : Nat) : String :=
  match vertex.isShared, vertex.aliasHint with
  | true, some hint => hint
  | true, none => config.sharedAliasPrefix ++ toString identifier
  | false, some hint => config.unsharedAliasPrefix ++ hint
  | false, none => config.unsharedAliasPrefix ++ toString identifier

/-- Gives a vertex a number, and the alias that goes with it. -/
def labelVertex
    (config : CompilerConfig)
    (graph : JoinGraph)
    (numbered : VertexId × Nat) : JoinGraph :=
  graph.modify numbered.1 fun vertex =>
    { vertex with
      identifier := some numbered.2
      aliasName := some (aliasText config vertex numbered.2) }

/-- Labels the used vertices below some roots. -/
def assignLabels
    (config : CompilerConfig)
    (roots : List VertexId)
    (graph : JoinGraph) : JoinGraph :=
  (graph.usedPreorder roots).zipIdx.foldl (labelVertex config) graph

/-- The number of a vertex. -/
def identifier? (graph : JoinGraph) (id : VertexId) : Option Nat :=
  (graph.vertex? id).bind Vertex.identifier

/-- The number and the alias of a vertex. -/
def label? (graph : JoinGraph) (id : VertexId) : Option VertexLabel :=
  (graph.vertex? id).bind Vertex.label

/-- The alias of a vertex, which only a used one has. -/
def aliasOf (graph : JoinGraph) (id : VertexId) : Except CompileError String :=
  match (graph.vertex? id).bind Vertex.aliasName with
  | some aliasName => .ok aliasName
  | none => .error (.aliasNotAllocated id)

/-- The vertices that have a number, in the order of their numbers. -/
def labelled (graph : JoinGraph) : List VertexId :=
  ((graph.ids.filterMap fun id =>
    (graph.identifier? id).map fun identifier => (identifier, id)).mergeSort
      fun first second => first.1 ≤ second.1).map Prod.snd

end JoinGraph
end QueryGraph
