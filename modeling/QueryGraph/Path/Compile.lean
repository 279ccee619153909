import QueryGraph.Graph.Declarations
import QueryGraph.Path.Compiled

/-!
# Compiling paths

Navigation through a relation becomes a join, unless a plain column reference can
stand for it: a reference to a joined record, or to its identifier, needs no join
when the key column on the near side says the same. That is so for a relation to at
most one record which is joined from the left, or whose partner is guaranteed to
exist.
-/

namespace QueryGraph

/-- What the compilation of paths reads. -/
structure PathContext where
  schema : Schema
  strictSchema : Bool
  /-- The vertices of the declared sources. -/
  sources : DeclarationMap

/-- An operation on the join graph that compiles a part of a path. -/
abbrev PathCompiling := EStateM CompileError JoinGraph

namespace PathCompiling

/-- Continues with a value, or stops with its error. -/
def require (result : Except CompileError α) : PathCompiling α :=
  match result with
  | .ok value => return value
  | .error error => throw error

/-- Marks a vertex as used. -/
def use (vertex : VertexId) : PathCompiling Unit :=
  modify fun graph => graph.setUsed vertex

end PathCompiling

namespace PathContext

open PathCompiling

/-- The vertex of a source. -/
def sourceVertex (context : PathContext) (source : NodeId) : Except CompileError VertexId :=
  match context.sources.find? source with
  | some vertex => .ok vertex
  | none => .error (.tree (.notASource source "unresolved source"))

/-- The record type that a route leads to. -/
def recordType
    (context : PathContext)
    (graph : JoinGraph) : Route -> Except CompileError String
  | .origin source => do
      let vertex ← context.sourceVertex source
      return ((graph.vertex? vertex).map Vertex.recordType).getD ""
  | .join _ source _ _ => do
      let vertex ← context.sourceVertex source
      return ((graph.vertex? vertex).map Vertex.recordType).getD ""
  | .field parent name => do
      context.schema.relationTarget (← context.recordType graph parent) name
  | .treat _ asType => do
      let _ ← context.schema.requireRecordType asType
      return asType

/-- Whether a key column on the near side of a join stands for the joined record. -/
def standsForJoin
    (context : PathContext)
    (owner : Route)
    (field : String)
    (direction : JoinDirection) : PathCompiling Bool := do
  let ownerType ← require (context.recordType (← get) owner)
  let declared ← require (context.schema.requireField ownerType field)
  return declared.isToOne &&
    (direction = .left || context.strictSchema && declared.isGuaranteedPresent)

/-- The vertex reached by navigating a relation from another vertex. -/
def implicitJoin
    (context : PathContext)
    (parent : VertexId)
    (field : String) : PathCompiling VertexId := do
  let parentType := (((← get).vertex? parent).map Vertex.recordType).getD ""
  let target ← require (context.schema.relationTarget parentType field)
  let resolution ← JoinGraph.resolve parent {
    field := field
    targetType := target
    origin := .implicit }
  return resolution.id

mutual

/-- Compiles a route. `leaf` tells whether the path ends here, and `selected` whether
it is then selected as a whole record. -/
def compileRoute (context : PathContext) : Route -> (leaf selected : Bool) -> PathCompiling CompiledPath
  | .origin source, _, _ => do
      let vertex ← require (context.sourceVertex source)
      use vertex
      return .toVertex vertex none
  | .join parent source field direction, leaf, selected => do
      let collapses ←
        if leaf && !selected then context.standsForJoin parent field direction
        else pure false
      if collapses then
        return .toField field (← context.compileRoute parent false false)
      else
        let vertex ← require (context.sourceVertex source)
        use vertex
        return .toVertex vertex (some (← context.compileRoute parent false false))
  | .field parent name, leaf, selected => do
      let parentType ← require (context.recordType (← get) parent)
      let field ← require (context.schema.requireField parentType name)
      let collapsed ←
        if leaf && field.isIdentifier then context.collapseIdentifier parent name
        else pure none
      match collapsed with
      | some path => return path
      | none =>
          if field.isRelation && (!leaf || (selected && field.isToOne)) then
            let path ← context.compileRoute parent false false
            match path.leaf.vertex? with
            | none => throw (.invalidNavigation parentType name .parentNotJoined)
            | some above =>
                let vertex ← context.implicitJoin above name
                use vertex
                return .toVertex vertex (some path)
          else if !leaf then
            throw (.invalidNavigation parentType name .scalarNavigated)
          else
            return .toField name (← context.compileRoute parent false false)
  | .treat target asType, leaf, selected => do
      let _ ← require (context.schema.requireRecordType asType)
      return (← context.compileRoute target leaf selected).treat asType

/-- Compiles an identifier that is read through a join or a relation for which a key
column can stand. -/
def collapseIdentifier
    (context : PathContext) :
    (parent : Route) -> (identifier : String) -> PathCompiling (Option CompiledPath)
  | .join owner _ field direction, identifier => do
      if ← context.standsForJoin owner field direction then
        let path ← context.compileRoute owner false false
        return some (.toField identifier (.toField field path))
      else return none
  | .field owner name, identifier => do
      let ownerType ← require (context.recordType (← get) owner)
      let relation ← require (context.schema.requireField ownerType name)
      if relation.isToOne then
        let path ← context.compileRoute owner false false
        return some (.toField identifier (.toField name path))
      else return none
  | .origin _, _ => return none
  | .treat _ _, _ => return none

end

/-- Compiles the path of an identity. -/
def compilePath
    (context : PathContext)
    (tree : Tree)
    (identity : PathIdentity) : PathCompiling CompiledPath := do
  let route ← require ((tree.route identity.node).mapError CompileError.tree)
  context.compileRoute route true identity.isDirectlySelected

/-- Compiles the paths of all identities in order. -/
def compilePaths
    (context : PathContext)
    (tree : Tree)
    (identities : List PathIdentity) : PathCompiling (List (PathIdentity × CompiledPath)) :=
  identities.mapM fun identity => do
    return (identity, ← context.compilePath tree identity)

end PathContext
end QueryGraph
