import QueryGraph.Graph.Basic

/-!
# Resolving joins

A join request reuses a sibling edge or becomes an edge of its own. A request in a
merge mode reuses the first sibling over the same relation that is not reserved for
its creator. The shared edge becomes inner when the directions differ, takes over
the alias, and is kept when one of the requests has to be. A condition belongs to
the edge that declared it: no explicit request shares an edge with a condition, and
implicit requests pass such edges by.
-/

namespace QueryGraph

/-- Who asks for a join. -/
inductive JoinOrigin
  /-- A source that declares it. -/
  | explicit
  /-- A path that navigates through it. -/
  | implicit
  deriving DecidableEq, Repr, Inhabited

namespace JoinOrigin

/-- Reads an origin by its name. -/
def ofName? (text : String) : Option JoinOrigin :=
  if text == "explicit" then some .explicit
  else if text == "implicit" then some .implicit
  else none

end JoinOrigin

/-- A request for a join below a vertex. -/
structure JoinRequest where
  field : String
  targetType : String
  direction : JoinDirection := .inner
  mode : JoinMode := .optionallyMergeExisting
  aliasHint : Option String := none
  on : Option NodeId := none
  origin : JoinOrigin := .explicit
  deriving DecidableEq, Repr

/-- What became of a request. -/
inductive Resolution
  | created (id : VertexId)
  | merged (id : VertexId)
  deriving DecidableEq, Repr

/-- The vertex that a request leads to. -/
def Resolution.id : Resolution -> VertexId
  | .created id | .merged id => id

namespace Vertex

/-- Whether a merging request for a relation may reuse the vertex. -/
def isMergeable
    (vertex : Vertex)
    (field : String)
    (origin : JoinOrigin) : Bool :=
  vertex.field = some field && !vertex.mode.isNew &&
    (origin = .explicit || vertex.on.isNone)

/-- The vertex that a request of its own creates. -/
def ofRequest (request : JoinRequest) (statement : NodeId) : Vertex where
  recordType := request.targetType
  field := some request.field
  direction := request.direction
  mode := request.mode
  explicit := request.origin = .explicit
  on := request.on
  aliasHint := request.aliasHint
  statement := statement

/-- Why a request cannot share the vertex. -/
def mergeFault?
    (vertex : Vertex)
    (request : JoinRequest) : Option CompileError :=
  if request.on.isSome || vertex.on.isSome then
    some (.onConditionOnMergedJoin request.field)
  else
    match vertex.aliasHint, request.aliasHint with
    | some existing, some requested =>
        if existing = requested then none
        else some (.conflictingAliases request.field existing requested)
    | _, _ => none

/-- The vertex after a request has come to share it. -/
def mergeRequest (vertex : Vertex) (request : JoinRequest) : Vertex :=
  { vertex with
    aliasHint := request.aliasHint.or vertex.aliasHint
    direction := vertex.direction.merge request.direction
    mode := if request.mode.isRequired then vertex.mode.toRequired else vertex.mode
    explicit := vertex.explicit || request.origin = .explicit }

end Vertex

namespace JoinGraph

/-- The first vertex below another one that a merging request may reuse. -/
def findMergeable
    (graph : JoinGraph)
    (parent : VertexId)
    (field : String)
    (origin : JoinOrigin) : Option VertexId :=
  (graph.children parent).find? fun child =>
    (graph.vertex? child).any fun vertex => vertex.isMergeable field origin

/-- The vertex that a request would reuse. -/
def candidate?
    (graph : JoinGraph)
    (parent : VertexId)
    (request : JoinRequest) : Option VertexId :=
  if request.mode.isNew then none
  else graph.findMergeable parent request.field request.origin

/-- Gives a request a vertex of its own. -/
def create
    (graph : JoinGraph)
    (parent : VertexId)
    (request : JoinRequest) : VertexId × JoinGraph :=
  let statement := ((graph.vertex? parent).map Vertex.statement).getD ⟨0⟩
  let (id, grown) := graph.attach parent (Vertex.ofRequest request statement)
  (id, if request.mode.isRequired || request.on.isSome then grown.setUsed id else grown)

/-- Lets a request share a vertex. -/
def merge
    (graph : JoinGraph)
    (id : VertexId)
    (request : JoinRequest) : JoinGraph :=
  let merged := graph.modify id fun vertex => vertex.mergeRequest request
  if request.mode.isRequired then merged.setUsed id else merged

/-- Resolves a request below a vertex. A refused request leaves the graph as it
was. -/
def resolve
    (parent : VertexId)
    (request : JoinRequest) : EStateM CompileError JoinGraph Resolution := do
  let graph ← get
  match graph.candidate? parent request with
  | none =>
      let (id, grown) := graph.create parent request
      set grown
      return .created id
  | some existing =>
      match (graph.vertex? existing).bind fun vertex => vertex.mergeFault? request with
      | some error => throw error
      | none =>
          set (graph.merge existing request)
          return .merged existing

end JoinGraph
end QueryGraph
