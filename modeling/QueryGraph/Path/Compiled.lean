import QueryGraph.Graph.Numbering

/-!
# Compiled paths

A compiled path is a chain of links, each to a vertex of the join graph or to a field
of what the rest of the chain leads to. A link may see its value as a more specific
record type.
-/

namespace QueryGraph

/-- What a link leads to. -/
inductive LinkTarget
  | vertex (id : VertexId)
  | field (name : String)
  deriving DecidableEq, Repr

/-- A link of a compiled path. -/
structure PathLink where
  target : LinkTarget
  treatAs : Option String := none
  deriving DecidableEq, Repr

namespace PathLink

/-- The vertex of a link. -/
def vertex? (link : PathLink) : Option VertexId :=
  match link.target with
  | .vertex id => some id
  | .field _ => none

/-- The field of a link. -/
def field? (link : PathLink) : Option String :=
  match link.target with
  | .vertex _ => none
  | .field name => some name

/-- The text of a link whose value has a text already. -/
def treated (link : PathLink) (text : String) : String :=
  match link.treatAs with
  | some asType => "treat(" ++ text ++ " as " ++ asType ++ ")"
  | none => text

end PathLink

/-- A compiled path: its last link, and the links before it, nearest first. -/
structure CompiledPath where
  leaf : PathLink
  above : List PathLink := []
  deriving DecidableEq, Repr

namespace CompiledPath

/-- A path that ends at a vertex. -/
def toVertex (id : VertexId) (parent : Option CompiledPath) : CompiledPath where
  leaf := { target := .vertex id }
  above :=
    match parent with
    | none => []
    | some parent => parent.leaf :: parent.above

/-- A path that ends at a field of another path. -/
def toField (name : String) (parent : CompiledPath) : CompiledPath where
  leaf := { target := .field name }
  above := parent.leaf :: parent.above

/-- The same path, seen as a more specific record type. -/
def treat (path : CompiledPath) (asType : String) : CompiledPath :=
  { path with leaf := { path.leaf with treatAs := some asType } }

/-- The links, nearest first. -/
def links (path : CompiledPath) : List PathLink := path.leaf :: path.above

/-- The links from the root to the end. -/
def chain (path : CompiledPath) : List PathLink := path.links.reverse

/-- The last vertex of the chain. -/
def nearestVertex? (path : CompiledPath) : Option VertexId :=
  path.links.findSome? PathLink.vertex?

end CompiledPath

namespace JoinGraph

/-- The text of links, nearest first. A vertex is called by its alias, and a field
follows the text of the links before it. -/
def renderLinks (graph : JoinGraph) : List PathLink -> Except CompileError String
  | [] => .ok ""
  | link :: above =>
      match link.target with
      | .vertex id => (graph.aliasOf id).map link.treated
      | .field name =>
          match above with
          | [] => .ok (link.treated name)
          | above =>
              (graph.renderLinks above).map fun parent => link.treated (parent ++ "." ++ name)

/-- The text of a compiled path. -/
def render (graph : JoinGraph) (path : CompiledPath) : Except CompileError String :=
  graph.renderLinks path.links

end JoinGraph
end QueryGraph
