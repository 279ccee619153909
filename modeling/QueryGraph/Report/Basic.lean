import QueryGraph.Compile.Basic
import QueryGraph.Report.Json

/-!
# Reports

What is told about a compiled query: its used vertices, its paths, its placeholders
and its constants, either as lines or as a JSON record.
-/

namespace QueryGraph

/-- What is told about a used vertex. -/
structure VertexSummary where
  identifier : Nat
  aliasName : String
  vertex : Vertex
  deriving DecidableEq, Repr

/-- What is told about a path. -/
structure PathSummary where
  identity : PathIdentity
  rendered : String
  deriving DecidableEq, Repr

/-- What is told about a compiled query. -/
structure Summary where
  strictSchema : Bool
  /-- The used vertices in the order of their numbers. -/
  vertices : List VertexSummary
  paths : List PathSummary
  /-- The names of the named placeholders. -/
  named : List String
  /-- The number of the positional placeholders. -/
  anonymous : Nat
  /-- The texts of the constants. -/
  literals : List String
  deriving DecidableEq, Repr

namespace VertexSummary

/-- The summary of a vertex as a record. -/
def toJson (summary : VertexSummary) : Json :=
  .record [
    ("identifier", .number summary.identifier),
    ("alias", .text summary.aliasName),
    ("record_type", .text summary.vertex.recordType),
    ("field", Json.optionalText summary.vertex.field),
    ("direction", .text summary.vertex.direction.name),
    ("mode", .text summary.vertex.mode.name),
    ("fetched", .bool summary.vertex.fetched) ]

end VertexSummary

namespace PathSummary

/-- The summary of a path as a record. -/
def toJson (summary : PathSummary) : Json :=
  .record [
    ("identity", .text summary.identity.toText),
    ("rendered", .text summary.rendered),
    ("directly_selected", .bool summary.identity.isDirectlySelected) ]

/-- The line of a path. -/
def line (summary : PathSummary) : String :=
  "  " ++ summary.identity.toText ++ " -> " ++ summary.rendered

end PathSummary

namespace Summary

/-- A summary as a record. -/
def toJson (summary : Summary) : Json :=
  .record [
    ("strict_schema", .bool summary.strictSchema),
    ("nodes", .list (summary.vertices.map VertexSummary.toJson)),
    ("paths", .list (summary.paths.map PathSummary.toJson)),
    ("named_parameters", .list (summary.named.map Json.text)),
    ("anonymous_parameters", .number summary.anonymous),
    ("literals", .list (summary.literals.map Json.text)) ]

end Summary

namespace CompiledGraph

/-- The summary of a vertex that has a number. -/
def vertexSummary
    (compiled : CompiledGraph)
    (id : VertexId) : Except CompileError VertexSummary :=
  match compiled.graph.vertex? id with
  | none => .error (.aliasNotAllocated id)
  | some vertex => do return ⟨vertex.identifier.getD 0, ← compiled.graph.aliasOf id, vertex⟩

/-- The summary of the path of an identity. -/
def pathSummary
    (compiled : CompiledGraph)
    (identity : PathIdentity) : Except CompileError PathSummary := do
  return ⟨identity, ← compiled.renderPath identity⟩

/-- The summaries of all paths, in the order of the walk. -/
def pathSummaries (compiled : CompiledGraph) : Except CompileError (List PathSummary) :=
  compiled.identities.mapM compiled.pathSummary

/-- The summary of a compiled query. -/
def summary (compiled : CompiledGraph) : Except CompileError Summary := do
  let vertices ← compiled.graph.labelled.mapM compiled.vertexSummary
  let paths ← compiled.pathSummaries
  return {
    strictSchema := compiled.strictSchema
    vertices := vertices
    paths := paths
    named := compiled.parameters.named.map Prod.fst
    anonymous := compiled.parameters.anonymous.length
    literals := compiled.literals.map fun entry => entry.2.toText }

/-- The lines that follow the text of the join graph. -/
def lines (compiled : CompiledGraph) (paths : List PathSummary) : List String :=
  [""] ++ ["Paths:"] ++ paths.map PathSummary.line ++
    ["Parameters:"] ++ compiled.parameters.named.map (fun entry => "  :" ++ entry.1) ++
    (List.range compiled.parameters.anonymous.length).map
      (fun index => "  ?" ++ toString (index + 1)) ++
    compiled.literals.map (fun entry => "  " ++ entry.2.toText)

/-- The report of a compiled query in lines. -/
def report (compiled : CompiledGraph) : Except CompileError String := do
  let paths ← compiled.pathSummaries
  return compiled.dump ++ String.join ((compiled.lines paths).map fun line => line ++ "\n")

/-- The report of a compiled query as a JSON record. -/
def jsonReport (compiled : CompiledGraph) : Except CompileError String := do
  return (← compiled.summary).toJson.pretty ++ "\n"

end CompiledGraph
end QueryGraph
