import QueryGraph.Graph.Numbering

/-!
# The text of a join graph

Each vertex has a line, and the vertices below it follow in braces, indented by four
spaces.
-/

namespace QueryGraph

/-- The opening brace. -/
def openBrace : String := "\x7b"

/-- The closing brace. -/
def closeBrace : String := "\x7d"

namespace Vertex

/-- What a vertex is: its record type for a root, the join that leads to it for any
other. -/
def heading (vertex : Vertex) : String :=
  match vertex.field with
  | none => vertex.recordType
  | some field =>
      vertex.direction.name ++ " join " ++ (if vertex.fetched then "fetch " else "") ++ field ++
        "(mode = " ++ vertex.mode.name ++ ", used = " ++
        (if vertex.used then "true" else "false") ++ ")"

/-- The line of a vertex, up to its end mark. -/
def line (vertex : Vertex) : String :=
  vertex.heading ++ (vertex.aliasName.map fun aliasName => " as " ++ aliasName).getD ""

end Vertex

namespace JoinGraph

/-- The lines of a vertex and of the vertices below it. -/
def dumpLines (graph : JoinGraph) : (fuel : Nat) -> (depth : Nat) -> VertexId -> List String
  | 0, _, _ => []
  | fuel + 1, depth, id =>
      match graph.vertex? id with
      | none => []
      | some vertex =>
          let indent := String.ofList (List.replicate (4 * depth) ' ')
          if vertex.children.isEmpty then [indent ++ vertex.line ++ ";"]
          else
            (indent ++ vertex.line ++ " " ++ openBrace) ::
              (vertex.children.flatMap (graph.dumpLines fuel (depth + 1)) ++
                [indent ++ closeBrace])

/-- The text of the vertices below some roots. -/
def dump (graph : JoinGraph) (roots : List VertexId) : String :=
  String.join ((roots.flatMap (graph.dumpLines graph.size 0)).map fun line => line ++ "\n")

end JoinGraph
end QueryGraph
