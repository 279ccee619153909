import QueryGraph.Compile.Error

/-!
# Join graphs

The vertices of a join graph are the roots of statements and the records reached by
joins. Every vertex but a root has a parent that was there before it, so the graph
is a forest, and climbing from a vertex ends at a root.
-/

namespace QueryGraph

/-- The number and the alias of a vertex that is part of the result. -/
structure VertexLabel where
  identifier : Nat
  aliasName : String
  deriving DecidableEq, Repr

/-- A vertex of a join graph. -/
structure Vertex where
  recordType : String
  /-- The relation that leads here; a root has none. -/
  field : Option String := none
  direction : JoinDirection := .inner
  mode : JoinMode := .optionallyMergeExisting
  /-- Whether anything refers to the vertex or to one below it. -/
  used : Bool := false
  /-- Whether the records are loaded with those of the parent. -/
  fetched : Bool := false
  /-- Whether the vertex was asked for, and not only found on the way. -/
  explicit : Bool := false
  /-- The condition of the join. -/
  on : Option NodeId := none
  /-- The alias suggested by a source. -/
  aliasHint : Option String := none
  parent : Option VertexId := none
  children : List VertexId := []
  /-- The statement whose root the vertex hangs off. -/
  statement : NodeId
  /-- The number of the vertex in the result. -/
  identifier : Option Nat := none
  /-- The alias of the vertex in the result. -/
  aliasName : Option String := none
  deriving DecidableEq, Repr

namespace Vertex

/-- The number and the alias of a vertex that has both. -/
def label (vertex : Vertex) : Option VertexLabel :=
  match vertex.identifier, vertex.aliasName with
  | some identifier, some aliasName => some ⟨identifier, aliasName⟩
  | _, _ => none

/-- A root. It is part of every result. -/
def root
    (recordType : String)
    (aliasHint : Option String)
    (statement : NodeId) : Vertex where
  recordType := recordType
  used := true
  explicit := true
  aliasHint := aliasHint
  statement := statement

/-- Whether the vertex is a root. -/
def isRoot (vertex : Vertex) : Bool := vertex.parent.isNone

/-- Whether the vertex may be referred to from everywhere in its statement. A join
that creates a new edge belongs to its source alone. -/
def isShared (vertex : Vertex) : Bool := vertex.isRoot || !vertex.mode.isNew

end Vertex

/-- A join graph. -/
structure JoinGraph where
  vertices : Array Vertex := #[]
  deriving DecidableEq, Repr, Inhabited

namespace JoinGraph

/-- The number of vertices. -/
def size (graph : JoinGraph) : Nat := graph.vertices.size

/-- Looks up a vertex. -/
def vertex? (graph : JoinGraph) (id : VertexId) : Option Vertex :=
  graph.vertices[id.index]?

/-- The vertices below a vertex, in the order of their creation. -/
def children (graph : JoinGraph) (id : VertexId) : List VertexId :=
  ((graph.vertex? id).map Vertex.children).getD []

/-- The numbers of all vertices. -/
def ids (graph : JoinGraph) : List VertexId :=
  (List.range graph.size).map VertexId.mk

/-- Changes a vertex. -/
def modify
    (graph : JoinGraph)
    (id : VertexId)
    (change : Vertex -> Vertex) : JoinGraph :=
  ⟨graph.vertices.modify id.index change⟩

@[simp] theorem size_modify
    (graph : JoinGraph)
    (id : VertexId)
    (change : Vertex -> Vertex) :
    (graph.modify id change).size = graph.size := by
  simp [size, modify]

/-- Adds a root. -/
def addRoot (graph : JoinGraph) (root : Vertex) : VertexId × JoinGraph :=
  (⟨graph.size⟩, ⟨graph.vertices.push root⟩)

/-- Adds a vertex below another one, as its last child. -/
def attach
    (graph : JoinGraph)
    (parent : VertexId)
    (vertex : Vertex) : VertexId × JoinGraph :=
  let id : VertexId := ⟨graph.size⟩
  let grown : JoinGraph := ⟨graph.vertices.push { vertex with parent := some parent }⟩
  (id, grown.modify parent fun above => { above with children := above.children ++ [id] })

/-- Climbs from a vertex to its root. -/
def climb (graph : JoinGraph) : (fuel : Nat) -> VertexId -> List VertexId
  | 0, _ => []
  | fuel + 1, id =>
      match graph.vertex? id with
      | none => []
      | some vertex =>
          id ::
            match vertex.parent with
            | none => []
            | some parent => graph.climb fuel parent

/-- A vertex and the vertices above it, up to the root. Parents come before their
children, so the number of vertices bounds the climb. -/
def ancestry (graph : JoinGraph) (id : VertexId) : List VertexId :=
  graph.climb graph.size id

/-- Changes several vertices. -/
def modifyAll
    (graph : JoinGraph)
    (ids : List VertexId)
    (change : Vertex -> Vertex) : JoinGraph :=
  ids.foldl (fun graph id => graph.modify id change) graph

/-- Marks a vertex and everything above it as used. -/
def setUsed (graph : JoinGraph) (id : VertexId) : JoinGraph :=
  graph.modifyAll (graph.ancestry id) fun vertex => { vertex with used := true }

/-- Marks a vertex as fetched. It and everything above it is used and explicit. -/
def setFetched (graph : JoinGraph) (id : VertexId) : JoinGraph :=
  let marked := graph.modify id fun vertex => { vertex with fetched := true }
  marked.modifyAll (graph.ancestry id) fun vertex =>
    { vertex with used := true, explicit := true }

/-- How a vertex is called on the way from its root. -/
def Vertex.step (vertex : Vertex) : String := vertex.field.getD vertex.recordType

/-- The dotted way from the root to a vertex. -/
def describe (graph : JoinGraph) (id : VertexId) : String :=
  ".".intercalate
    ((graph.ancestry id).filterMap fun above =>
      (graph.vertex? above).map Vertex.step).reverse

end JoinGraph
end QueryGraph
