import QueryGraph.Graph.Resolution
import QueryGraph.Schema.Basic
import QueryGraph.Tree.Declared

/-!
# From declarations to vertices

Every declared source and every declared fetch leads to a vertex. Sources are built
when a statement is entered for the first time; fetches are merged when all paths
are known.
-/

namespace QueryGraph

/-- The vertices of declarations, in the order in which they were declared, together with
a table in which they are looked up. -/
structure DeclarationMap where
  entries : List (NodeId × VertexId) := []
  /-- The vertex of each declaration, the one recorded last first. -/
  index : List (NodeId × VertexId) := []
  /-- What is listed is in the table, and nothing else is. -/
  mem_index_iff : ∀ declaration,
    declaration ∈ index.map Prod.fst ↔ declaration ∈ entries.map Prod.fst := by simp
  deriving DecidableEq, Repr

namespace DeclarationMap

/-- A map without declarations. -/
def empty : DeclarationMap := {}

/-- The vertex of a declaration. -/
def find? (map : DeclarationMap) (declaration : NodeId) : Option VertexId :=
  map.index.lookup declaration

/-- Lists a declaration, unless it is listed already. -/
def listed
    (map : DeclarationMap)
    (declaration : NodeId)
    (vertex : VertexId) : List (NodeId × VertexId) :=
  if (map.find? declaration).isNone then map.entries ++ [(declaration, vertex)] else map.entries

theorem isSome_find?_iff {map : DeclarationMap} {declaration : NodeId} :
    (map.find? declaration).isSome = true ↔ declaration ∈ map.entries.map Prod.fst := by
  rw [← map.mem_index_iff, find?, List.lookup_isSome_iff]
  simp

theorem mem_listed_iff
    {map : DeclarationMap}
    {declaration other : NodeId}
    {vertex : VertexId} :
    other ∈ (map.listed declaration vertex).map Prod.fst ↔
      other = declaration ∨ other ∈ map.entries.map Prod.fst := by
  unfold listed
  cases known : map.find? declaration with
  | none => simp [or_comm]
  | some existing =>
      have isListed := isSome_find?_iff.mp (Option.isSome_of_eq_some known)
      refine ⟨Or.inr, ?_⟩
      rintro (rfl | member)
      · exact isListed
      · exact member

/-- Records the vertex of a declaration. One that was recorded before stays listed as it
was, and is looked up with its new vertex. -/
def insert
    (map : DeclarationMap)
    (declaration : NodeId)
    (vertex : VertexId) : DeclarationMap where
  entries := map.listed declaration vertex
  index := (declaration, vertex) :: map.index
  mem_index_iff other := by
    rw [mem_listed_iff, List.map_cons, List.mem_cons, map.mem_index_iff]

end DeclarationMap

namespace Schema

/-- A record type that a compilation needs. -/
def requireRecordType (schema : Schema) (name : String) : Except CompileError RecordType :=
  (schema.recordType name).mapError CompileError.ofSchema

/-- A field that a compilation needs. -/
def requireField
    (schema : Schema)
    (recordType name : String) : Except CompileError Field :=
  (schema.field recordType name).mapError CompileError.ofSchema

/-- The record type that a relation leads to. -/
def relationTarget
    (schema : Schema)
    (recordType name : String) : Except CompileError String := do
  let field ← schema.requireField recordType name
  match field.target? with
  | some target => return target
  | none => throw (.invalidNavigation recordType name .notARelation)

end Schema

/-- A join graph together with the vertices of what was declared so far. -/
structure GraphState where
  graph : JoinGraph := {}
  declared : DeclarationMap := .empty
  deriving DecidableEq, Repr

/-- An operation on a join graph and its declarations that may be refused. -/
abbrev Graphing := EStateM CompileError GraphState

namespace Graphing

/-- Continues with a value, or stops with its error. -/
def require (result : Except CompileError α) : Graphing α :=
  match result with
  | .ok value => return value
  | .error error => throw error

/-- Runs an operation on the graph alone. -/
def onGraph (action : EStateM CompileError JoinGraph α) : Graphing α := fun state =>
  match action state.graph with
  | .ok value graph => .ok value { state with graph := graph }
  | .error error graph => .error error { state with graph := graph }

/-- Records the vertex of a declaration. -/
def declare (declaration : NodeId) (vertex : VertexId) : Graphing Unit :=
  modify fun state => { state with declared := state.declared.insert declaration vertex }

/-- The record type of a vertex. -/
def recordType (id : VertexId) : Graphing String :=
  return ((((← get).graph.vertex? id).map Vertex.recordType).getD "")

/-- Resolves the joins declared below a vertex, each before those below it. -/
def buildJoins (schema : Schema) (parent : VertexId) : List SourceTree -> Graphing Unit
  | [] => return ()
  | .mk id source _ joins :: rest => do
      match source.kind with
      | .join _ field direction mode on =>
          let target ← require (schema.relationTarget (← recordType parent) field)
          let resolution ← onGraph (JoinGraph.resolve parent {
            field := field
            targetType := target
            direction := direction
            mode := mode
            aliasHint := source.aliasHint
            on := on
            origin := .explicit })
          declare id resolution.id
          buildJoins schema resolution.id joins
          buildJoins schema parent rest
      | _ => throw (.tree (.notASource id "misplaced source"))

/-- Builds a root with everything that is joined to it. -/
def buildRoot (schema : Schema) : SourceTree -> Graphing VertexId
  | .mk id source _ joins => do
      match source.kind with
      | .root recordType =>
          let _ ← require (schema.requireRecordType recordType)
          let state ← get
          let (vertex, graph) :=
            state.graph.addRoot (Vertex.root recordType source.aliasHint source.statement)
          set { state with graph := graph }
          declare id vertex
          buildJoins schema vertex joins
          return vertex
      | _ => throw (.tree (.notASource id "misplaced source"))

end Graphing

namespace Vertex

/-- Whether a fetch may reuse the vertex. The whole of a collection is only loaded
through a vertex that is fetched already. -/
def isFetchable
    (vertex : Vertex)
    (field : Field)
    (collection : CollectionFetch) : Bool :=
  vertex.field = some field.name && !vertex.mode.isNew && vertex.on.isNone &&
    (collection = .partially || field.isToOne || vertex.fetched)

end Vertex

namespace JoinGraph

/-- The vertex through which a relation is fetched below another one. -/
def fetchVertex
    (graph : JoinGraph)
    (parent : VertexId)
    (field : Field)
    (target : String)
    (direction : JoinDirection)
    (collection : CollectionFetch) : VertexId × JoinGraph :=
  let reusable := (graph.children parent).find? fun child =>
    (graph.vertex? child).any fun vertex => vertex.isFetchable field collection
  match reusable with
  | some existing =>
      (existing, graph.modify existing fun vertex =>
        { vertex with direction := vertex.direction.merge direction })
  | none =>
      let statement := ((graph.vertex? parent).map Vertex.statement).getD ⟨0⟩
      graph.attach parent {
        recordType := target
        field := some field.name
        direction := direction
        statement := statement }

end JoinGraph

namespace Graphing

mutual

/-- Merges a fetch, and the fetches below it, below a vertex. -/
def mergeFetch
    (schema : Schema)
    (parent : VertexId) : FetchTree -> Graphing Unit
  | .mk id name direction collection nested => do
      let parentType ← recordType parent
      let field ← require (schema.requireField parentType name)
      match field.target? with
      | none => throw (.invalidNavigation parentType name .onlyRelationsFetched)
      | some target =>
          let state ← get
          let (vertex, graph) :=
            state.graph.fetchVertex parent field target direction collection
          set { state with graph := graph.setFetched vertex }
          declare id vertex
          mergeFetches schema vertex nested

/-- Merges a list of fetches below a vertex. -/
def mergeFetches
    (schema : Schema)
    (parent : VertexId) : List FetchTree -> Graphing Unit
  | [] => return ()
  | fetch :: fetches => do
      mergeFetch schema parent fetch
      mergeFetches schema parent fetches

end

/-- Merges the fetches of every declared source, in the order of declaration. -/
def mergeAllFetches
    (schema : Schema)
    (tree : Tree)
    (sources : DeclarationMap) : Graphing Unit :=
  sources.entries.forM fun (source, vertex) => do
    let fetches ← require ((tree.fetchTrees source).mapError CompileError.tree)
    mergeFetches schema vertex fetches

end Graphing
end QueryGraph
