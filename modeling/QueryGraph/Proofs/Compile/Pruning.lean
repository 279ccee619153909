import Mathlib
import QueryGraph.Proofs.Compile.History

/-!
# Pruning

A result keeps a vertex exactly when something needs it: the vertex is a root, is required, has
a condition or is fetched, a compiled path leads through it, or a kept vertex hangs off it.
-/

namespace QueryGraph
namespace JoinGraph

variable {graph : JoinGraph} {history : List GraphEvent} {id : VertexId} {vertex : Vertex}

/-- What makes a vertex part of the result is a root, a reference, or a contributor that keeps
it. -/
theorem exists_uses_iff_asks :
    (∃ event ∈ history, event.uses = true ∧ id = event.id) ↔
      GraphEvent.root id ∈ history ∨ GraphEvent.reference id ∈ history ∨
        ∃ contributor, Asks history id contributor ∧ contributor.keeps = true := by
  constructor
  · rintro ⟨event, member, uses, rfl⟩
    cases event with
    | root place => exact Or.inl member
    | reference place => exact Or.inr (Or.inl member)
    | granted contributor parent place =>
        exact Or.inr (Or.inr ⟨contributor, ⟨parent, member⟩, uses⟩)
  · rintro (member | member | ⟨contributor, ⟨parent, member⟩, keeps⟩)
    · exact ⟨_, member, rfl, rfl⟩
    · exact ⟨_, member, rfl, rfl⟩
    · exact ⟨_, member, keeps, rfl⟩

theorem exists_isFetch_iff_asks :
    (∃ event ∈ history, event.isFetch = true ∧ id = event.id) ↔
      ∃ contributor, Asks history id contributor ∧ contributor.isFetch = true := by
  constructor
  · rintro ⟨event, member, isFetch, rfl⟩
    cases event with
    | granted contributor parent place => exact ⟨contributor, ⟨parent, member⟩, isFetch⟩
    | _ => cases isFetch
  · rintro ⟨contributor, ⟨parent, member⟩, isFetch⟩
    exact ⟨_, member, isFetch, rfl⟩

/-- What makes a vertex part of the result shows in the vertex, or is a reference of a path. -/
theorem Chronicle.exists_uses_iff
    (chronicle : Chronicle history graph)
    (found : graph.vertex? id = some vertex) :
    (∃ event ∈ history, event.uses = true ∧ id = event.id) ↔
      vertex.isRoot = true ∨ vertex.mode.isRequired = true ∨ vertex.on.isSome = true ∨
        vertex.fetched = true ∨ GraphEvent.reference id ∈ history := by
  rw [exists_uses_iff_asks, ← chronicle.isRoot_iff found]
  cases below : vertex.isRoot with
  | true => simp only [true_or]
  | false =>
      have fetched : vertex.fetched = true ↔
          ∃ contributor, Asks history id contributor ∧ contributor.isFetch = true := by
        have marked : graph.Marked Vertex.fetched id ↔ vertex.fetched = true := marked_iff found
        rw [← marked, chronicle.fetched, exists_isFetch_iff_asks]
      rw [(chronicle.aggregates_of_vertex? found below).exists_keeps_iff, ← fetched]
      refine or_congr_right ?_
      rw [or_comm, or_assoc, or_assoc]
      rfl

end JoinGraph

namespace Tree

/-- A vertex of a result is kept exactly when it is a root, is required, has a condition or is
fetched, a compiled path leads through it, or a kept vertex hangs off it. -/
theorem compiled_vertex_used_iff
    {tree held : Tree}
    {schema : Schema}
    {config : CompilerConfig}
    {owner : Owner}
    {compiled : CompiledGraph}
    {id : VertexId}
    {vertex : Vertex}
    (reachable : tree.Reachable)
    (done : tree.compile schema config owner = (.ok compiled, held))
    (found : compiled.graph.vertex? id = some vertex) :
    vertex.used = true ↔
      vertex.isRoot = true ∨ vertex.mode.isRequired = true ∨ vertex.on.isSome = true ∨
        vertex.fetched = true ∨
        (∃ identity path, (identity, path) ∈ compiled.paths ∧ id ∈ path.vertices) ∨
        ∃ child ∈ vertex.children, compiled.graph.isUsed child = true := by
  obtain ⟨history, tells⟩ := compile_tells reachable done
  have chronicle := tells.chronicle
  have below : (∃ child, compiled.graph.HangsOff child id ∧
      compiled.graph.Marked Vertex.used child) ↔
        ∃ child ∈ vertex.children, compiled.graph.isUsed child = true := by
    simp only [← chronicle.forest.listed, JoinGraph.mem_children, found, Option.some.injEq,
      exists_eq_left', JoinGraph.isUsed_iff]
  have marked : compiled.graph.Marked Vertex.used id ↔ vertex.used = true :=
    JoinGraph.marked_iff found
  rw [← marked, chronicle.used, chronicle.exists_uses_iff found, tells.references, below]
  simp only [or_assoc]

/-- Employees with a team. -/
def crew : Schema :=
  ⟨⟨[("Employee", .ofFields "Employee" [.relation "team" "Team" .manyToOne true]),
    ("Team", .ofFields "Team" [.scalar "title"])]⟩⟩

/-- Three joins over one relation: two that may share an edge, and one that asks for an edge of
its own. The title of the first team is selected. -/
def teammates : Tree :=
  (ofKind .query).performAll [
    .build (.root top "Employee"),
    .build (.join ⟨1⟩ "team" .left .optionallyMergeExisting),
    .build (.join ⟨1⟩ "team" .inner .requiredToMergeExisting),
    .build (.join ⟨1⟩ "team" .left .optionallyCreateNew),
    .build (.access ⟨2⟩ "title"),
    .build (.select top ⟨5⟩)]

/-- The join that asks for an edge of its own is not needed. -/
theorem teammates_vertex_used_iff :
    ∃ compiled held vertex,
      teammates.compile crew {} ⟨8⟩ = (.ok compiled, held) ∧
        compiled.graph.vertex? ⟨2⟩ = some vertex ∧
        (vertex.used = true ↔
          vertex.isRoot = true ∨ vertex.mode.isRequired = true ∨ vertex.on.isSome = true ∨
            vertex.fetched = true ∨
            (∃ identity path, (identity, path) ∈ compiled.paths ∧ ⟨2⟩ ∈ path.vertices) ∨
            ∃ child ∈ vertex.children, compiled.graph.isUsed child = true) := by
  have succeeds : (match (teammates.compile crew {} ⟨8⟩).1 with
      | .ok compiled => (compiled.graph.vertex? ⟨2⟩).isSome
      | .error _ => false) = true := by
    cbv
  cases outcome : teammates.compile crew {} ⟨8⟩ with
  | mk result held =>
      rw [outcome] at succeeds
      cases result with
      | error error => cases succeeds
      | ok compiled =>
          obtain ⟨vertex, found⟩ := Option.isSome_iff_exists.mp succeeds
          exact ⟨compiled, held, vertex, rfl, found,
            compiled_vertex_used_iff ⟨.query, _, rfl⟩ outcome found⟩

end Tree
end QueryGraph
