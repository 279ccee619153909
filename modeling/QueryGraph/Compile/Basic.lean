import QueryGraph.Compile.Walk
import QueryGraph.Graph.Dump
import QueryGraph.Path.Compile

/-!
# Compiling a tree

A compilation walks the tree, compiles every path that the walk met, merges the
declared fetches, and labels the vertices that are used. As long as its result
lives, the nodes that it read stay held. A compilation that fails gives back every
hold.
-/

namespace QueryGraph

/-- The result of a compilation. -/
structure CompiledGraph where
  /-- The holds on the compiled tree. -/
  guard : Guard
  graph : JoinGraph
  /-- The roots of every statement, in the order in which statements were entered. -/
  statementRoots : List (NodeId × List VertexId)
  /-- The vertices of the declared sources. -/
  sources : DeclarationMap
  /-- The vertices of the declared fetches. -/
  fetches : DeclarationMap
  /-- Every occurrence of a path, in the order of the walk. -/
  paths : List (PathIdentity × CompiledPath)
  parameters : ParameterRegistry
  literals : List (NodeId × Literal)
  strictSchema : Bool
  deriving DecidableEq, Repr

namespace CompiledGraph

/-- The compiled statements in order. -/
def statements (compiled : CompiledGraph) : List NodeId :=
  compiled.statementRoots.map Prod.fst

/-- The roots of a statement. -/
def rootsOf (compiled : CompiledGraph) (statement : NodeId) : List VertexId :=
  (compiled.statementRoots.lookup statement).getD []

/-- The roots of all statements. -/
def roots (compiled : CompiledGraph) : List VertexId :=
  compiled.statementRoots.flatMap Prod.snd

/-- The identities of all paths in order. -/
def identities (compiled : CompiledGraph) : List PathIdentity :=
  compiled.paths.map Prod.fst

/-- The compiled path of an identity. -/
def lookup
    (compiled : CompiledGraph)
    (identity : PathIdentity) : Except CompileError CompiledPath :=
  match compiled.paths.lookup identity with
  | some path => .ok path
  | none => .error (.unknownPathIdentity identity)

/-- The text of the path of an identity. -/
def renderPath
    (compiled : CompiledGraph)
    (identity : PathIdentity) : Except CompileError String := do
  compiled.graph.render (← compiled.lookup identity)

/-- An allocator that expects the identities of the compilation. -/
def replay (compiled : CompiledGraph) : PathAllocator :=
  PathAllocator.replay compiled.identities

/-- The text of the join graph. -/
def dump (compiled : CompiledGraph) : String :=
  compiled.graph.dump compiled.roots

/-- Gives back the holds on the tree. -/
def close (compiled : CompiledGraph) (tree : Tree) : Except FreezeError Unit × Tree :=
  compiled.guard.release tree

end CompiledGraph

/-- What follows the walk of a tree. -/
def Walk.finish
    (walk : Walk)
    (schema : Schema)
    (config : CompilerConfig) : Except CompileError CompiledGraph :=
  let context : PathContext := ⟨schema, config.strictSchema, walk.sources.declared⟩
  let paths := context.compilePaths walk.tree walk.allocator.identities
  match paths walk.sources.graph with
  | .error error _ => .error error
  | .ok paths graph =>
      match Graphing.mergeAllFetches schema walk.tree walk.sources.declared { graph := graph } with
      | .error error _ => .error error
      | .ok () fetched =>
          .ok {
            guard := walk.guard
            graph := fetched.graph.assignLabels config (walk.statementRoots.flatMap Prod.snd)
            statementRoots := walk.statementRoots
            sources := walk.sources.declared
            fetches := fetched.declared
            paths := paths
            parameters := walk.parameters
            literals := walk.literals
            strictSchema := config.strictSchema }

namespace Tree

/-- Compiles a tree on behalf of an owner. -/
def compile
    (tree : Tree)
    (schema : Schema)
    (config : CompilerConfig)
    (owner : Owner) : Except CompileError CompiledGraph × Tree :=
  match Walking.walkTree schema { tree := tree, guard := { owner := owner } } with
  | .error error walk => (.error error, (walk.guard.release walk.tree).2)
  | .ok () walk =>
      match walk.finish schema config with
      | .error error => (.error error, (walk.guard.release walk.tree).2)
      | .ok compiled => (.ok compiled, walk.tree)

end Tree
end QueryGraph
