import Mathlib
import QueryGraph.Proofs.Compile.Forest
import QueryGraph.Proofs.Path.Refusal
import QueryGraph.Proofs.Walk.Passage

/-!
# Why a compilation fails

A tree that was built call by call fails to compile only for what is there at a visit of the walk,
or for a look-up in the schema. The errors that speak of a broken tree, of a broken stack or of a
broken schema never come up.
-/

namespace QueryGraph

open Operation

/-- An error that no use of the builder can bring about: it speaks of a defect of the tree, of the
path stack or of the schema itself, or of a result that is asked for something else. -/
def CompileError.isInternal : CompileError -> Bool
  | .noRoots _ | .recursiveSubquery _ | .unknownRecordType _ | .unknownField _ _
  | .onConditionOnMergedJoin _ | .conflictingAliases _ _ _ | .anonymousParameterReused _
  | .namedParameterConflict _ _ _ => false
  | .invalidNavigation _ _ fault => fault = .parentNotJoined
  | .tree (.rootOutsideStatement _ _) => false
  | .freeze (.frozenByOther _ _) => false
  | _ => true

theorem CompileError.FailsLookup.isInternal_eq_false
    {error : CompileError}
    (fails : error.FailsLookup) :
    error.isInternal = false := by
  cases fails with
  | navigation recordType name joined => exact decide_eq_false joined
  | _ => rfl

theorem CompileError.FailsDeclaration.isInternal_eq_false
    {error : CompileError}
    (fails : error.FailsDeclaration) :
    error.isInternal = false := by
  rcases fails with lookup | merge
  · exact lookup.isInternal_eq_false
  · cases merge <;> rfl

/-- A failed look-up says nothing about shared edges. -/
theorem CompileError.FailsLookup.not_failsMerge
    {error : CompileError}
    (fails : error.FailsLookup) :
    ¬ error.FailsMerge := by
  intro merge
  cases merge <;> cases fails

namespace Tree

/-- Whether the top statement is a query, an update or a delete. -/
def isTopLevel (tree : Tree) : Bool :=
  match tree.node? top with
  | some (.statement body) => body.kind.isTopLevel
  | _ => false

theorem exists_of_isTopLevel
    {tree : Tree}
    (isTopLevel : tree.isTopLevel = true) :
    ∃ body, tree.node? top = some (.statement body) ∧ body.kind.isTopLevel = true := by
  unfold Tree.isTopLevel at isTopLevel
  split at isTopLevel
  · exact ⟨_, ‹_›, isTopLevel⟩
  · cases isTopLevel

variable {tree held : Tree} {schema : Schema} {config : CompilerConfig} {owner : Owner}
  {body : Statement} {error : CompileError}

theorem Permits.isInternal_eq_false
    (permits : tree.Permits owner error) :
    error.isInternal = false := by
  cases permits with
  | declaration fails => exact fails.isInternal_eq_false
  | _ => rfl

/-- What follows a walk fails only for a look-up in the schema. -/
theorem failsLookup_of_finish
    {walk : Walk}
    (orderly : tree.Orderly)
    (walked : Walking.walkTree schema (tree.startWalk owner) = .ok () walk)
    (failed : walk.finish schema config = .error error) :
    error.FailsLookup := by
  have placed := orderly.placed
  have declares := Walking.declares_of_walkTree placed walked
  rcases Walk.finish_eq_error.mp failed with ⟨graph, refused⟩ | ⟨_, graph, state, -, refused⟩
  · refine (PathContext.refusal_compilePaths fun identity member => ?_).of_error refused
    obtain ⟨chain, found, -, entered⟩ := Walking.inScope_of_walkTree walked identity member
    obtain ⟨route, leads, -, -, within⟩ := placed.leads_of_chain found
    have evolves : tree.Evolves walk.tree := (Matches.of_nodes declares.nodes []).evolves
    refine ⟨route, evolves.route (leads.route placed), fun source onRoute => ?_⟩
    obtain ⟨sourceBody, sourceFound, here⟩ := within source onRoute
    rw [← here] at entered
    exact DeclarationMap.find?_of_mem_keys (declares.complete sourceFound entered)
  · have merged : Ends (fun _ _ => True) CompileError.FailsLookup
        (Graphing.mergeAllFetches schema walk.tree walk.sources.declared { graph := graph }) := by
      refine Graphing.refusal_mergeAllFetches (orderly.of_nodes declares.nodes) ?_
      intro entry member
      obtain ⟨vertex, declared⟩ :=
        DeclarationMap.find?_of_mem_keys (DeclarationMap.mem_keys_of_mem member)
      obtain ⟨_, -, described⟩ := declares.sound.described declared
      rw [node?_eq_of_nodes declares.nodes]
      exact described.exists_source
    exact merged.of_error refused

/-- The walk of a compilation follows all visits of its tree, or is stopped by what is there at one
of them. -/
theorem ends_startWalk
    (orderly : tree.Orderly)
    (found : tree.node? top = some (.statement body))
    (isTopLevel : body.kind.isTopLevel = true) :
    Ends (fun _ after => Itinerary.Follows ⟨schema, tree, owner⟩ [] [] tree.visits after)
      (tree.Permits owner) (Walking.walkTree schema (tree.startWalk owner)) := by
  exact Itinerary.ends_walkTree orderly found isTopLevel

/-- A compilation fails only for what is there at a visit of its walk, or for the schema. -/
theorem permits_of_compile
    (orderly : tree.Orderly)
    (found : tree.node? top = some (.statement body))
    (isTopLevel : body.kind.isTopLevel = true)
    (failed : tree.compile schema config owner = (.error error, held)) :
    tree.Permits owner error := by
  cases walked : Walking.walkTree schema (tree.startWalk owner) with
  | error fault walk =>
      rw [compile_of_walk_error config walked] at failed
      cases failed
      exact (ends_startWalk orderly found isTopLevel).of_error walked
  | ok value walk =>
      cases finished : walk.finish schema config with
      | error fault =>
          rw [compile_of_finish_error walked finished] at failed
          cases failed
          exact .declaration (Or.inl (failsLookup_of_finish orderly walked finished))
      | ok compiled =>
          rw [compile_of_finish_ok walked finished] at failed
          cases failed

/-- A tree with the nodes that builder calls made, whoever holds them, compiles or is refused with
an error that is not internal. A compilation that succeeds leaves nothing on the path stack. And
navigation on its own, on whatever graph, is never refused for an edge that it would share. -/
theorem compile_refusal
    {built : Tree}
    (reachable : built.Reachable)
    (nodes : tree.nodes = built.nodes)
    (isTopLevel : tree.isTopLevel = true) :
    (∀ error held, tree.compile schema config owner = (.error error, held) ->
      error.isInternal = false) ∧
    (∀ compiled held, tree.compile schema config owner = (.ok compiled, held) ->
      ∃ walk, Walking.walkTree schema (tree.startWalk owner) = .ok () walk ∧
        walk.finish schema config = .ok compiled ∧ walk.allocator.stack = []) ∧
    ∀ (context : PathContext) parent field graph error after,
      context.implicitJoin parent field graph = .error error after -> ¬ error.FailsMerge := by
  have orderly := reachable.orderly.of_nodes nodes
  obtain ⟨body, found, isTopLevel⟩ := exists_of_isTopLevel isTopLevel
  refine ⟨fun error held failed => ?_, fun compiled held done => ?_, ?_⟩
  · exact (permits_of_compile orderly found isTopLevel failed).isInternal_eq_false
  · obtain ⟨walk, walked, finished, -⟩ := compile_eq_ok.mp done
    have follows := (ends_startWalk orderly found isTopLevel).of_ok walked
    exact ⟨walk, walked, finished, follows.stack⟩
  · intro context parent field graph error after refused
    have fails : error.FailsLookup :=
      (PathContext.refusal_implicitJoin parent field).of_error refused
    exact fails.not_failsMerge

/-- The members of every crew, while another compilation holds the crew. -/
def heldCrewMembers : Tree := crewMembers.perform (.freeze ⟨1⟩ ⟨7⟩)

/-- The members compile with nothing left on the path stack, and while somebody else holds the crew
they are refused for that reason. -/
theorem crewMembers_refusal :
    heldCrewMembers.nodes = crewMembers.nodes ∧
    (∃ walk compiled, Walking.walkTree crews (crewMembers.startWalk ⟨8⟩) = .ok () walk ∧
      walk.finish crews {} = .ok compiled ∧ walk.allocator.stack = []) ∧
    ∃ error held, heldCrewMembers.compile crews {} ⟨8⟩ = (.error error, held) ∧
      error = .freeze (.frozenByOther ⟨1⟩ ⟨7⟩) ∧ error.isInternal = false := by
  have reachable : crewMembers.Reachable := ⟨.query, _, rfl⟩
  have nodes : heldCrewMembers.nodes = crewMembers.nodes := by cbv
  have isTopLevel : crewMembers.isTopLevel = true := by cbv
  have heldIsTopLevel : heldCrewMembers.isTopLevel = true := by cbv
  refine ⟨nodes, ?_, ?_⟩
  · have succeeds : ((crewMembers.compile crews {} ⟨8⟩).1.toOption.any fun _ => true) = true := by
      cbv
    obtain ⟨compiled, held, done, -⟩ := exists_compiled succeeds
    obtain ⟨walk, walked, finished, stack⟩ :=
      (compile_refusal reachable rfl isTopLevel).2.1 compiled held done
    exact ⟨walk, compiled, walked, finished, stack⟩
  · have fails : (heldCrewMembers.compile crews {} ⟨8⟩).1 =
        .error (.freeze (.frozenByOther ⟨1⟩ ⟨7⟩)) := by
      cbv
    have outcome : heldCrewMembers.compile crews {} ⟨8⟩ =
        (.error (.freeze (.frozenByOther ⟨1⟩ ⟨7⟩)), (heldCrewMembers.compile crews {} ⟨8⟩).2) := by
      rw [← fails]
    exact ⟨_, _, outcome, rfl, (compile_refusal reachable nodes heldIsTopLevel).1 _ _ outcome⟩

end Tree
end QueryGraph
