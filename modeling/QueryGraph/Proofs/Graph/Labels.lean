import QueryGraph.Graph.Numbering
import QueryGraph.Proofs.Graph.History

/-!
# Labels

The labels are given out last, and nothing of what a graph owes to its history is about them.
-/

namespace QueryGraph
namespace JoinGraph

variable {graph : JoinGraph} {config : CompilerConfig} {roots : List VertexId}

/-- Whatever of a vertex is neither its number nor its alias stays. -/
theorem map_vertex?_assignLabels
    {α : Type}
    {part : Vertex -> α}
    (graph : JoinGraph)
    (config : CompilerConfig)
    (roots : List VertexId)
    (id : VertexId)
    (ignores : ∀ (vertex : Vertex) identifier aliasName,
      part { vertex with identifier := identifier, aliasName := aliasName } = part vertex) :
    ((graph.assignLabels config roots).vertex? id).map part = (graph.vertex? id).map part := by
  unfold assignLabels
  generalize (graph.usedPreorder roots).zipIdx = numbered
  induction numbered generalizing graph with
  | nil => rfl
  | cons first rest inductionHypothesis =>
      rw [List.foldl_cons, inductionHypothesis]
      unfold labelVertex
      rw [vertex?_modify]
      split
      · cases graph.vertex? id with
        | none => rfl
        | some vertex => simp [ignores]
      · rfl

@[simp] theorem edge?_assignLabels (id : VertexId) :
    (graph.assignLabels config roots).edge? id = graph.edge? id :=
  map_vertex?_assignLabels graph config roots id fun _ _ _ => rfl

@[simp] theorem children_assignLabels (id : VertexId) :
    (graph.assignLabels config roots).children id = graph.children id := by
  unfold children
  rw [map_vertex?_assignLabels graph config roots id fun _ _ _ => rfl]

theorem marked_assignLabels
    {mark : Vertex -> Bool}
    {id : VertexId}
    (ignores : ∀ (vertex : Vertex) identifier aliasName,
      mark { vertex with identifier := identifier, aliasName := aliasName } = mark vertex) :
    (graph.assignLabels config roots).Marked mark id ↔ graph.Marked mark id := by
  have marked : ∀ graph : JoinGraph,
      graph.Marked mark id ↔ (graph.vertex? id).map mark = some true := by
    intro graph
    simp only [Marked, Option.map_eq_some_iff]
  rw [marked, marked, map_vertex?_assignLabels graph config roots id ignores]

theorem isUsed_iff {id : VertexId} :
    graph.isUsed id = true ↔ graph.Marked Vertex.used id := by
  unfold isUsed Marked
  cases graph.vertex? id <;> simp

@[simp] theorem isUsed_assignLabels (id : VertexId) :
    (graph.assignLabels config roots).isUsed id = graph.isUsed id := by
  rw [Bool.eq_iff_iff, isUsed_iff, isUsed_iff]
  exact marked_assignLabels fun _ _ _ => rfl

/-- A labelled graph owes the same to its history. -/
theorem Chronicle.assignLabels
    {history : List GraphEvent}
    (chronicle : Chronicle history graph)
    (config : CompilerConfig)
    (roots : List VertexId) :
    Chronicle history (graph.assignLabels config roots) := by
  have edges : ∀ id, (graph.assignLabels config roots).edge? id = graph.edge? id :=
    edge?_assignLabels
  have hangs : (graph.assignLabels config roots).HangsOff = graph.HangsOff := hangsOff_eq edges
  have under : (graph.assignLabels config roots).Under = graph.Under := by
    unfold Under
    rw [hangs]
  have used : ∀ id, (graph.assignLabels config roots).Marked Vertex.used id ↔
      graph.Marked Vertex.used id := fun id => marked_assignLabels fun _ _ _ => rfl
  exact {
    forest := chronicle.forest.of_edges edges children_assignLabels
    present := by
      intro event member
      rw [size_eq_of_edges edges]
      exact chronicle.present member
    root := by
      intro id
      rw [edges]
      exact chronicle.root
    bare := by
      intro id edge found
      rw [edges] at found
      exact chronicle.bare found
    granted := by
      intro contributor parent id member
      rw [hangs]
      exact chronicle.granted member
    aggregates := by
      intro id edge parent found
      rw [edges] at found
      exact chronicle.aggregates found
    used := by
      intro id
      simp only [used, hangs]
      exact chronicle.used
    explicit := by
      intro id
      rw [marked_assignLabels fun _ _ _ => rfl, under]
      exact chronicle.explicit
    fetched := by
      intro id
      rw [marked_assignLabels fun _ _ _ => rfl]
      exact chronicle.fetched }

/-! ## The vertices that have a label -/

theorem label?_labelVertex
    (graph : JoinGraph)
    (numbered : VertexId × Nat)
    (id : VertexId) :
    (labelVertex config graph numbered).label? id =
      if numbered.1 = id then
        (graph.vertex? id).map fun vertex => ⟨numbered.2, aliasText config vertex numbered.2⟩
      else graph.label? id := by
  unfold label? labelVertex
  rw [vertex?_modify]
  split
  · rw [Option.bind_map, Option.map_eq_bind]
    rfl
  · rfl

theorem identifier?_labelVertex
    (graph : JoinGraph)
    (numbered : VertexId × Nat)
    (id : VertexId) :
    (labelVertex config graph numbered).identifier? id =
      if numbered.1 = id then (graph.vertex? id).map fun _ => numbered.2
      else graph.identifier? id := by
  unfold identifier? labelVertex
  rw [vertex?_modify]
  split
  · rw [Option.bind_map, Option.map_eq_bind]
    rfl
  · rfl

theorem identifier?_foldl_of_not_mem
    {numbered : List (VertexId × Nat)}
    {id : VertexId}
    (unlisted : id ∉ numbered.map Prod.fst) :
    (numbered.foldl (labelVertex config) graph).identifier? id = graph.identifier? id := by
  induction numbered generalizing graph with
  | nil => rfl
  | cons first rest inductionHypothesis =>
      rw [List.map_cons, List.mem_cons, not_or] at unlisted
      rw [List.foldl_cons, inductionHypothesis unlisted.2, identifier?_labelVertex,
        if_neg (Ne.symm unlisted.1)]

theorem label?_foldl_of_not_mem
    {numbered : List (VertexId × Nat)}
    {id : VertexId}
    (unlisted : id ∉ numbered.map Prod.fst) :
    (numbered.foldl (labelVertex config) graph).label? id = graph.label? id := by
  induction numbered generalizing graph with
  | nil => rfl
  | cons first rest inductionHypothesis =>
      rw [List.map_cons, List.mem_cons, not_or] at unlisted
      rw [List.foldl_cons, inductionHypothesis unlisted.2, label?_labelVertex,
        if_neg (Ne.symm unlisted.1)]

/-- A vertex that is numbered once has that number. -/
theorem label?_foldl_of_mem
    {numbered : List (VertexId × Nat)}
    {id : VertexId}
    {number : Nat}
    {vertex : Vertex}
    (nodup : (numbered.map Prod.fst).Nodup)
    (listed : (id, number) ∈ numbered)
    (found : graph.vertex? id = some vertex) :
    (numbered.foldl (labelVertex config) graph).label? id =
      some ⟨number, aliasText config vertex number⟩ := by
  induction numbered generalizing graph with
  | nil => cases listed
  | cons first rest inductionHypothesis =>
      obtain ⟨once, nodupRest⟩ := List.nodup_cons.mp nodup
      rw [List.foldl_cons]
      rcases List.mem_cons.mp listed with rfl | later
      · rw [label?_foldl_of_not_mem once, label?_labelVertex, if_pos rfl, found]
        rfl
      · have differs : first.1 ≠ id := by
          rintro rfl
          exact once (List.mem_map.mpr ⟨_, later, rfl⟩)
        refine inductionHypothesis nodupRest later ?_
        unfold labelVertex
        rw [vertex?_modify, if_neg differs, found]

/-- Where the descents meet no vertex twice, every used one that they meet has its place among
the used ones as its number. -/
theorem label?_assignLabels
    {id : VertexId}
    {number : Nat}
    {vertex : Vertex}
    (nodup : (graph.preorder roots).Nodup)
    (place : (graph.usedPreorder roots)[number]? = some id)
    (found : graph.vertex? id = some vertex) :
    (graph.assignLabels config roots).label? id =
      some ⟨number, aliasText config vertex number⟩ := by
  refine label?_foldl_of_mem ?_ (List.mem_zipIdx_iff_getElem?.mpr place) found
  rw [List.zipIdx_map_fst]
  exact nodup.filter _

end JoinGraph
end QueryGraph
