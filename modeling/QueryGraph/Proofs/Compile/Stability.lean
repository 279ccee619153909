import QueryGraph.Proofs.Compile.Restoration
import QueryGraph.Proofs.Path.Steps
import QueryGraph.Proofs.Walk.Coverage
import QueryGraph.Proofs.Walk.Mirror

/-!
# A compilation protects what it read

As long as the result of a compilation lives, nothing that anybody else does with the
tree changes what the compilation depends on. Once the result is closed, the tree
compiles again, to the same result.
-/

namespace QueryGraph

/-- The same fetches are merged in two trees that declare the same fetches below the
declared sources. -/
theorem Graphing.mergeAllFetches_congr
    {schema : Schema}
    {before after : Tree}
    {sources : DeclarationMap}
    (same : ∀ id ∈ sources.keys, after.fetchTrees id = before.fetchTrees id) :
    mergeAllFetches schema after sources = mergeAllFetches schema before sources := by
  apply Operation.forM_congr
  rintro ⟨id, vertex⟩ member
  simp only [same id (DeclarationMap.mem_keys_of_mem member)]

/-- What follows a walk gives the same on every tree that agrees with that of the walk
on what the walk held. -/
theorem Walk.finish_onto
    {walk : Walk}
    {tree : Tree}
    {again : Owner}
    {schema : Schema}
    {config : CompilerConfig}
    {compiled : CompiledGraph}
    (covered : walk.Covered)
    (agree : Tree.Matches walk.guard.held walk.tree tree)
    (finished : walk.finish schema config = .ok compiled) :
    (walk.onto tree again).finish schema config =
      .ok { compiled with guard := { compiled.guard with owner := again } } := by
  have fetches : Graphing.mergeAllFetches schema tree walk.sources.declared =
      Graphing.mergeAllFetches schema walk.tree walk.sources.declared := by
    apply Graphing.mergeAllFetches_congr
    intro id member
    obtain ⟨fetches, isHeld, found, fetchesHeld⟩ := covered id member
    rw [found, agree.fetchTrees isHeld fetchesHeld found]
  obtain ⟨paths, graph, fetched, pathsDone, fetchesDone, rfl⟩ := Walk.finish_eq_ok.mp finished
  have pathsLater := PathContext.compilePaths_of_evolves agree.evolves pathsDone
  rw [← fetches] at fetchesDone
  exact Walk.finish_eq_ok.mpr ⟨paths, graph, fetched, pathsLater, fetchesDone, rfl⟩

namespace Tree

/-- While the result of a compilation lives, everybody else may build on the tree and
take and give back holds of their own, whether the calls succeed or are refused. Closing
the result then succeeds, and compiling again with the same schema and configuration
succeeds with the same result, on behalf of whomever it is done. -/
theorem compile_again_after_calls
    {tree held : Tree}
    {schema : Schema}
    {config : CompilerConfig}
    {owner : Owner}
    {compiled : CompiledGraph}
    (reachable : tree.Reachable)
    (unclaimed : tree.Unclaimed owner)
    (done : tree.compile schema config owner = (.ok compiled, held))
    (calls : List TreeCall)
    (others : ∀ call ∈ calls, call.owner? ≠ some owner)
    (again : Owner) :
    ∃ closed heldAgain,
      compiled.close (held.performAll calls) = (.ok (), closed) ∧
        closed.compile schema config again =
          (.ok { compiled with guard := { compiled.guard with owner := again } }, heldAgain) := by
  obtain ⟨nodes, ownerEq, raised, -⟩ := compile_of_ok done
  obtain ⟨walk, walked, finished, rfl⟩ := compile_eq_ok.mp done
  have guardEq := Walk.guard_of_finish finished
  obtain ⟨later, laterBalanced, sameHold, laterRaised, sameNode⟩ :=
    raised.performAll reachable.balanced others
  obtain ⟨closed, given, closedNodes, closedHold⟩ := laterRaised.unfreezeAll laterBalanced
  have closing : compiled.close (walk.tree.performAll calls) = (.ok (), closed) := by
    unfold CompiledGraph.close Guard.release
    rw [ownerEq, given]
  have agree : Matches walk.guard.held tree closed := by
    rw [← guardEq]
    have performed : Matches compiled.guard.held walk.tree (walk.tree.performAll calls) :=
      ⟨walk.tree.evolves_performAll calls, sameNode⟩
    exact ((Matches.of_nodes nodes _).trans performed).trans (Matches.of_nodes closedNodes _)
  have free : ∀ id ∈ walk.guard.held,
      closed.contains id = true ∧ (closed.hold id).Admits again := by
    intro id member
    rw [← guardEq] at member
    refine ⟨?_, Or.inl ?_⟩
    · have present := laterRaised.present id member
      unfold contains size at present ⊢
      rwa [closedNodes]
    · rw [closedHold id, sameHold id member]
      rcases raised.admits id member with none | own
      · exact none
      · exact absurd own (unclaimed id)
  obtain ⟨heldAgain, walkedAgain, agreeAgain⟩ :=
    Walking.walkTree_repeats again walked agree free
  have covered := Walking.covered_of_walkTree reachable.placed walked
  have agreeWalk : Matches walk.guard.held walk.tree heldAgain :=
    (Matches.of_nodes nodes.symm _).trans agreeAgain
  exact ⟨closed, heldAgain, closing, compile_eq_ok.mpr
    ⟨walk.onto heldAgain again, walkedAgain, walk.finish_onto covered agreeWalk finished, rfl⟩⟩

/-- Somebody tries to select something else, and holds a field that was added later. -/
def interference : List TreeCall := [
  .build (.access ⟨1⟩ "salary"),
  .build (.select top ⟨4⟩),
  .freeze ⟨4⟩ ⟨9⟩,
  .freeze top ⟨9⟩,
  .unfreeze ⟨3⟩ ⟨7⟩]

theorem employeeNames_compile_again :
    ∃ compiled held closed heldAgain,
      ((ofKind .query).performAll employeeNames).compile employees {} ⟨8⟩ = (.ok compiled, held) ∧
        compiled.close (held.performAll interference) = (.ok (), closed) ∧
        closed.compile employees {} ⟨10⟩ =
          (.ok { compiled with guard := { compiled.guard with owner := ⟨10⟩ } }, heldAgain) := by
  have succeeds :
      (((ofKind .query).performAll employeeNames).compile employees {} ⟨8⟩).1.isOk = true := by
    cbv
  have unclaimed : ((ofKind .query).performAll employeeNames).Unclaimed ⟨8⟩ :=
    unclaimed_of_ids (by decide)
  cases outcome : ((ofKind .query).performAll employeeNames).compile employees {} ⟨8⟩ with
  | mk result held =>
      rw [outcome] at succeeds
      cases result with
      | error error => cases succeeds
      | ok compiled =>
          obtain ⟨closed, heldAgain, closing, again⟩ :=
            compile_again_after_calls ⟨.query, employeeNames, rfl⟩ unclaimed outcome interference
              (by decide) ⟨10⟩
          exact ⟨compiled, held, closed, heldAgain, rfl, closing, again⟩

end Tree
end QueryGraph
