import QueryGraph.Compile.Basic
import QueryGraph.Proofs.Operation

/-!
# The ways a compilation ends

A compilation is a walk and what follows it. It fails where one of them does.
-/

namespace QueryGraph

/-- The walk with which a compilation begins. -/
def Tree.startWalk (tree : Tree) (owner : Owner) : Walk :=
  { tree := tree, guard := { owner := owner } }

namespace Walk

/-- What the compilation of the paths of a walk reads. -/
def context
    (walk : Walk)
    (schema : Schema)
    (config : CompilerConfig) : PathContext :=
  ⟨schema, config.strictSchema, walk.sources.declared⟩

/-- The result of a compilation whose paths are compiled and whose fetches are merged. -/
def result
    (walk : Walk)
    (config : CompilerConfig)
    (paths : List (PathIdentity × CompiledPath))
    (fetched : GraphState) : CompiledGraph where
  guard := walk.guard
  graph := fetched.graph.assignLabels config (walk.statementRoots.flatMap Prod.snd)
  statementRoots := walk.statementRoots
  sources := walk.sources.declared
  fetches := fetched.declared
  paths := paths
  parameters := walk.parameters
  literals := walk.literals
  strictSchema := config.strictSchema

theorem finish_eq_ok
    {walk : Walk}
    {schema : Schema}
    {config : CompilerConfig}
    {compiled : CompiledGraph} :
    walk.finish schema config = .ok compiled ↔
      ∃ paths graph fetched,
        (walk.context schema config).compilePaths walk.tree walk.allocator.identities
          walk.sources.graph = .ok paths graph ∧
        Graphing.mergeAllFetches schema walk.tree walk.sources.declared { graph := graph } =
          .ok () fetched ∧
        compiled = walk.result config paths fetched := by
  unfold finish context
  cases pathsDone : PathContext.compilePaths ⟨schema, config.strictSchema, walk.sources.declared⟩
      walk.tree walk.allocator.identities walk.sources.graph with
  | error error graph => simp [pathsDone]
  | ok paths graph =>
      cases fetchesDone : Graphing.mergeAllFetches schema walk.tree walk.sources.declared
          { graph := graph } with
      | error error state =>
          simp only [pathsDone, fetchesDone, reduceCtorEq, false_iff]
          rintro ⟨_, _, fetched, same, contrary, -⟩
          cases same
          rw [fetchesDone] at contrary
          cases contrary
      | ok value fetched =>
          simp only [pathsDone, fetchesDone, Except.ok.injEq]
          constructor
          · rintro rfl
            exact ⟨paths, graph, fetched, rfl, fetchesDone, rfl⟩
          · rintro ⟨_, _, other, same, otherDone, rfl⟩
            cases same
            rw [fetchesDone] at otherDone
            cases otherDone
            rfl

theorem finish_eq_error
    {walk : Walk}
    {schema : Schema}
    {config : CompilerConfig}
    {error : CompileError} :
    walk.finish schema config = .error error ↔
      (∃ graph, (walk.context schema config).compilePaths walk.tree walk.allocator.identities
        walk.sources.graph = .error error graph) ∨
      ∃ paths graph state,
        (walk.context schema config).compilePaths walk.tree walk.allocator.identities
          walk.sources.graph = .ok paths graph ∧
        Graphing.mergeAllFetches schema walk.tree walk.sources.declared { graph := graph } =
          .error error state := by
  unfold finish context
  cases pathsDone : PathContext.compilePaths ⟨schema, config.strictSchema, walk.sources.declared⟩
      walk.tree walk.allocator.identities walk.sources.graph with
  | error fault graph => simp [pathsDone]
  | ok paths graph =>
      cases fetchesDone : Graphing.mergeAllFetches schema walk.tree walk.sources.declared
          { graph := graph } with
      | error fault state => simp [pathsDone, fetchesDone]
      | ok value fetched => simp [pathsDone, fetchesDone]

/-- What follows the walk keeps the list of holds. -/
theorem guard_of_finish
    {walk : Walk}
    {schema : Schema}
    {config : CompilerConfig}
    {compiled : CompiledGraph}
    (done : walk.finish schema config = .ok compiled) :
    compiled.guard = walk.guard := by
  obtain ⟨paths, graph, fetched, -, -, rfl⟩ := finish_eq_ok.mp done
  rfl

end Walk

namespace Tree

theorem compile_of_walk_error
    {tree : Tree}
    {schema : Schema}
    {owner : Owner}
    {error : CompileError}
    {walk : Walk}
    (config : CompilerConfig)
    (stopped : Walking.walkTree schema (tree.startWalk owner) = .error error walk) :
    tree.compile schema config owner = (.error error, (walk.guard.release walk.tree).2) := by
  unfold startWalk at stopped
  unfold compile
  rw [stopped]

theorem compile_of_finish_error
    {tree : Tree}
    {schema : Schema}
    {config : CompilerConfig}
    {owner : Owner}
    {error : CompileError}
    {walk : Walk}
    (walked : Walking.walkTree schema (tree.startWalk owner) = .ok () walk)
    (failed : walk.finish schema config = .error error) :
    tree.compile schema config owner = (.error error, (walk.guard.release walk.tree).2) := by
  unfold startWalk at walked
  unfold compile
  rw [walked]
  simp only [failed]

theorem compile_of_finish_ok
    {tree : Tree}
    {schema : Schema}
    {config : CompilerConfig}
    {owner : Owner}
    {compiled : CompiledGraph}
    {walk : Walk}
    (walked : Walking.walkTree schema (tree.startWalk owner) = .ok () walk)
    (finished : walk.finish schema config = .ok compiled) :
    tree.compile schema config owner = (.ok compiled, walk.tree) := by
  unfold startWalk at walked
  unfold compile
  rw [walked]
  simp only [finished]

theorem compile_eq_ok
    {tree after : Tree}
    {schema : Schema}
    {config : CompilerConfig}
    {owner : Owner}
    {compiled : CompiledGraph} :
    tree.compile schema config owner = (.ok compiled, after) ↔
      ∃ walk, Walking.walkTree schema (tree.startWalk owner) = .ok () walk ∧
        walk.finish schema config = .ok compiled ∧ after = walk.tree := by
  constructor
  · intro done
    cases walked : Walking.walkTree schema (tree.startWalk owner) with
    | error error walk =>
        rw [compile_of_walk_error config walked] at done
        cases done
    | ok value walk =>
        cases finished : walk.finish schema config with
        | error error =>
            rw [compile_of_finish_error walked finished] at done
            cases done
        | ok found =>
            rw [compile_of_finish_ok walked finished] at done
            cases done
            exact ⟨walk, rfl, finished, rfl⟩
  · rintro ⟨walk, walked, finished, rfl⟩
    exact compile_of_finish_ok walked finished

/-- A compilation whose result passes a test succeeds. -/
theorem exists_compiled
    {tree : Tree}
    {schema : Schema}
    {config : CompilerConfig}
    {owner : Owner}
    {test : CompiledGraph -> Bool}
    (passes : (tree.compile schema config owner).1.toOption.any test = true) :
    ∃ compiled held, tree.compile schema config owner = (.ok compiled, held) ∧
      test compiled = true := by
  cases outcome : tree.compile schema config owner with
  | mk result held =>
      rw [outcome] at passes
      cases result with
      | error error => cases passes
      | ok compiled => exact ⟨compiled, held, rfl, passes⟩

end Tree
end QueryGraph
