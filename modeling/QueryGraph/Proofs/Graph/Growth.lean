import QueryGraph.Graph.Numbering
import QueryGraph.Graph.Resolution
import QueryGraph.Graph.Declarations
import QueryGraph.Proofs.Operation

/-!
# How a join graph grows

A vertex is never removed, and keeps its record type, its relation and its statement. In
a coherent graph every vertex below another one belongs to the same statement, and has
the record type that its relation leads to from the record type above.
-/

namespace QueryGraph

/-- A vertex without what may still change of it, except for the list of the vertices
below. -/
def Vertex.core (vertex : Vertex) : Vertex where
  recordType := vertex.recordType
  field := vertex.field
  statement := vertex.statement
  children := vertex.children

namespace JoinGraph

theorem lt_size_of_vertex?
    {graph : JoinGraph}
    {id : VertexId}
    {vertex : Vertex}
    (found : graph.vertex? id = some vertex) :
    id.index < graph.size := by
  unfold vertex? at found
  exact (Array.getElem?_eq_some_iff.mp found).1

theorem vertex?_modify
    (graph : JoinGraph)
    (id : VertexId)
    (change : Vertex -> Vertex)
    (other : VertexId) :
    (graph.modify id change).vertex? other =
      if id = other then (graph.vertex? other).map change else graph.vertex? other := by
  simp only [vertex?, modify, Array.getElem?_modify]
  by_cases same : id = other
  · simp [same]
  · have differs : id.index ≠ other.index := by
      intro equal
      apply same
      cases id
      cases other
      simp_all
    simp [same, differs]

theorem vertex?_addRoot
    (graph : JoinGraph)
    (root : Vertex)
    (id : VertexId) :
    (graph.addRoot root).2.vertex? id =
      if id.index = graph.size then some root else graph.vertex? id :=
  Array.getElem?_push

/-! ## Growth -/

/-- Every vertex of a graph is still there, and has kept its record type, its relation and
its statement. -/
def Grows (before after : JoinGraph) : Prop :=
  ∀ id vertex, before.vertex? id = some vertex ->
    ∃ later, after.vertex? id = some later ∧ later.recordType = vertex.recordType ∧
      later.field = vertex.field ∧ later.statement = vertex.statement

theorem Grows.refl (graph : JoinGraph) : graph.Grows graph :=
  fun _ vertex found => ⟨vertex, found, rfl, rfl, rfl⟩

theorem Grows.trans
    {first second third : JoinGraph}
    (earlier : first.Grows second)
    (later : second.Grows third) :
    first.Grows third := by
  intro id vertex found
  obtain ⟨between, foundBetween, type, field, statement⟩ := earlier id vertex found
  obtain ⟨last, foundLast, lastType, lastField, lastStatement⟩ := later id between foundBetween
  exact ⟨last, foundLast, lastType.trans type, lastField.trans field,
    lastStatement.trans statement⟩

theorem grows_addRoot (graph : JoinGraph) (root : Vertex) :
    graph.Grows (graph.addRoot root).2 := by
  intro id vertex found
  have below := lt_size_of_vertex? found
  refine ⟨vertex, ?_, rfl, rfl, rfl⟩
  rw [vertex?_addRoot, if_neg (by omega), found]

/-! ## Coherence -/

/-- Every vertex below another one belongs to its statement, and is of the type that its
relation leads to. -/
def Coherent (graph : JoinGraph) (schema : Schema) : Prop :=
  ∀ id vertex, graph.vertex? id = some vertex -> ∀ child ∈ vertex.children,
    ∃ below field, graph.vertex? child = some below ∧ below.statement = vertex.statement ∧
      below.field = some field ∧
        schema.relationTarget vertex.recordType field = .ok below.recordType

/-! ## Changes that keep the cores -/

/-- Two graphs whose vertices have the same cores. -/
def Retouched (before after : JoinGraph) : Prop :=
  ∀ id, (after.vertex? id).map Vertex.core = (before.vertex? id).map Vertex.core

namespace Retouched

theorem refl (graph : JoinGraph) : graph.Retouched graph := fun _ => rfl

theorem trans
    {first second third : JoinGraph}
    (earlier : first.Retouched second)
    (later : second.Retouched third) :
    first.Retouched third :=
  fun id => (later id).trans (earlier id)

variable {before after : JoinGraph}

theorem vertex?_eq_some
    {id : VertexId}
    {vertex : Vertex}
    (retouched : before.Retouched after)
    (found : before.vertex? id = some vertex) :
    ∃ later, after.vertex? id = some later ∧ later.core = vertex.core := by
  have same := retouched id
  rw [found] at same
  exact Option.map_eq_some_iff.mp same

theorem symm (retouched : before.Retouched after) : after.Retouched before :=
  fun id => (retouched id).symm

theorem grows (retouched : before.Retouched after) : before.Grows after := by
  intro id vertex found
  obtain ⟨later, foundLater, same⟩ := retouched.vertex?_eq_some found
  simp only [Vertex.core, Vertex.mk.injEq] at same
  exact ⟨later, foundLater, same.1, same.2.1, same.2.2.2.2.2.2.2.2.2.2.2.1⟩

theorem coherent
    {schema : Schema}
    (retouched : before.Retouched after)
    (coherent : before.Coherent schema) :
    after.Coherent schema := by
  intro id later foundLater child member
  obtain ⟨vertex, found, same⟩ := retouched.symm.vertex?_eq_some foundLater
  simp only [Vertex.core, Vertex.mk.injEq] at same
  obtain ⟨type, -, -, -, -, -, -, -, -, -, children, statement, -⟩ := same
  rw [← children] at member
  obtain ⟨below, field, foundBelow, belowStatement, belowField, target⟩ :=
    coherent id vertex found child member
  obtain ⟨newer, foundNewer, newerType, newerField, newerStatement⟩ :=
    retouched.grows child below foundBelow
  refine ⟨newer, field, foundNewer, ?_, newerField.trans belowField, ?_⟩
  · rw [newerStatement, belowStatement, statement]
  · rw [← type, target, newerType]

end Retouched

theorem retouched_modify
    {change : Vertex -> Vertex}
    (graph : JoinGraph)
    (id : VertexId)
    (keeps : ∀ vertex, (change vertex).core = vertex.core) :
    graph.Retouched (graph.modify id change) := by
  intro other
  rw [vertex?_modify]
  split
  · cases graph.vertex? other with
    | none => rfl
    | some vertex => simp [keeps vertex]
  · rfl

theorem retouched_modifyAll
    {change : Vertex -> Vertex}
    (graph : JoinGraph)
    (ids : List VertexId)
    (keeps : ∀ vertex, (change vertex).core = vertex.core) :
    graph.Retouched (graph.modifyAll ids change) := by
  unfold modifyAll
  induction ids generalizing graph with
  | nil => exact .refl graph
  | cons id ids inductionHypothesis =>
      exact (retouched_modify graph id keeps).trans (inductionHypothesis (graph.modify id change))

theorem retouched_setUsed (graph : JoinGraph) (id : VertexId) :
    graph.Retouched (graph.setUsed id) :=
  retouched_modifyAll graph _ fun _ => rfl

theorem retouched_setFetched (graph : JoinGraph) (id : VertexId) :
    graph.Retouched (graph.setFetched id) := by
  have marked : graph.Retouched (graph.modify id fun vertex => { vertex with fetched := true }) :=
    retouched_modify graph id fun _ => rfl
  exact marked.trans (retouched_modifyAll _ (graph.ancestry id) fun _ => rfl)

theorem retouched_merge
    (graph : JoinGraph)
    (id : VertexId)
    (request : JoinRequest) :
    graph.Retouched (graph.merge id request) := by
  unfold merge
  have merged := retouched_modify graph id
    fun vertex => show (vertex.mergeRequest request).core = vertex.core from rfl
  split
  · exact merged.trans (retouched_setUsed _ id)
  · exact merged

theorem retouched_assignLabels
    (graph : JoinGraph)
    (config : CompilerConfig)
    (roots : List VertexId) :
    graph.Retouched (graph.assignLabels config roots) := by
  unfold assignLabels
  generalize (graph.usedPreorder roots).zipIdx = numbered
  induction numbered generalizing graph with
  | nil => exact .refl graph
  | cons first rest inductionHypothesis =>
      have labelled : graph.Retouched (labelVertex config graph first) :=
        retouched_modify graph first.1 fun _ => rfl
      exact labelled.trans (inductionHypothesis (labelVertex config graph first))

/-! ## Adding vertices -/

theorem coherent_addRoot
    {schema : Schema}
    {graph : JoinGraph}
    {root : Vertex}
    (coherent : graph.Coherent schema)
    (childless : root.children = []) :
    (graph.addRoot root).2.Coherent schema := by
  intro id vertex found child member
  rw [vertex?_addRoot] at found
  by_cases new : id.index = graph.size
  · rw [if_pos new] at found
    cases found
    rw [childless] at member
    cases member
  · rw [if_neg new] at found
    obtain ⟨below, field, foundBelow, statement, belowField, target⟩ :=
      coherent id vertex found child member
    have older := lt_size_of_vertex? foundBelow
    refine ⟨below, field, ?_, statement, belowField, target⟩
    rw [vertex?_addRoot, if_neg (by omega), foundBelow]

theorem vertex?_attach
    (graph : JoinGraph)
    (parent : VertexId)
    (vertex : Vertex)
    (id : VertexId)
    (older : parent.index < graph.size) :
    (graph.attach parent vertex).2.vertex? id =
      if id.index = graph.size then some { vertex with parent := some parent }
      else if parent = id then
        (graph.vertex? id).map fun above =>
          { above with children := above.children ++ [⟨graph.size⟩] }
      else graph.vertex? id := by
  unfold attach
  simp only
  rw [vertex?_modify]
  have pushed : ∀ other : VertexId,
      (⟨graph.vertices.push { vertex with parent := some parent }⟩ : JoinGraph).vertex? other =
        if other.index = graph.size then some { vertex with parent := some parent }
        else graph.vertex? other := fun other => Array.getElem?_push
  rw [pushed]
  by_cases new : id.index = graph.size
  · have differs : parent ≠ id := by
      rintro rfl
      omega
    rw [if_neg differs, if_pos new, if_pos new]
  · rw [if_neg new, if_neg new]

theorem grows_attach
    (graph : JoinGraph)
    (parent : VertexId)
    (vertex : Vertex) :
    graph.Grows (graph.attach parent vertex).2 := by
  have pushed : graph.Grows ⟨graph.vertices.push { vertex with parent := some parent }⟩ :=
    grows_addRoot graph { vertex with parent := some parent }
  apply pushed.trans
  intro id found present
  unfold attach
  simp only
  rw [vertex?_modify, present]
  split
  · exact ⟨_, rfl, rfl, rfl, rfl⟩
  · exact ⟨found, rfl, rfl, rfl, rfl⟩

/-- A vertex of the right statement and type may be added below another one. -/
theorem coherent_attach
    {schema : Schema}
    {graph : JoinGraph}
    {parent : VertexId}
    {above vertex : Vertex}
    {field : String}
    (coherent : graph.Coherent schema)
    (parentFound : graph.vertex? parent = some above)
    (childless : vertex.children = [])
    (sameStatement : vertex.statement = above.statement)
    (isField : vertex.field = some field)
    (target : schema.relationTarget above.recordType field = .ok vertex.recordType) :
    (graph.attach parent vertex).2.Coherent schema := by
  have older := lt_size_of_vertex? parentFound
  have grows := grows_attach graph parent vertex
  have lookup := fun id => vertex?_attach graph parent vertex id older
  have kept : ∀ {owner : Vertex} {child : VertexId},
      (∃ below field, graph.vertex? child = some below ∧ below.statement = owner.statement ∧
        below.field = some field ∧
        schema.relationTarget owner.recordType field = .ok below.recordType) ->
      ∃ below field, (graph.attach parent vertex).2.vertex? child = some below ∧
        below.statement = owner.statement ∧ below.field = some field ∧
        schema.relationTarget owner.recordType field = .ok below.recordType := by
    rintro owner child ⟨below, name, found, statement, belowField, leads⟩
    obtain ⟨later, foundLater, laterType, laterField, laterStatement⟩ := grows child below found
    refine ⟨later, name, foundLater, laterStatement.trans statement,
      laterField.trans belowField, ?_⟩
    rw [leads, laterType]
  intro id found present child member
  rw [lookup id] at present
  by_cases new : id.index = graph.size
  · rw [if_pos new] at present
    cases present
    rw [childless] at member
    cases member
  · rw [if_neg new] at present
    by_cases here : parent = id
    · rw [if_pos here, ← here, parentFound] at present
      cases present
      rcases List.mem_append.mp member with old | added
      · exact kept (coherent parent above parentFound child old)
      · rw [List.mem_singleton.mp added, lookup, if_pos rfl]
        exact ⟨_, field, rfl, sameStatement, isField, target⟩
    · rw [if_neg here] at present
      exact kept (coherent id found present child member)

end JoinGraph
end QueryGraph
