import QueryGraph.Proofs.Graph.History

/-!
# Suggested aliases

Until the labels are given out no vertex has one. Its alias is at most suggested, by a source that
declares it: navigations and fetches suggest nothing.
-/

namespace QueryGraph

/-- A vertex that has neither a number nor an alias. -/
def Vertex.Unlabelled (vertex : Vertex) : Prop :=
  vertex.identifier = none ∧ vertex.aliasName = none

/-- A vertex without a label, whose alias is at most suggested, and then by an allowed name. -/
structure Vertex.Bare
    (allowed : String -> Prop)
    (vertex : Vertex) : Prop where
  label : vertex.Unlabelled
  aliasHint : ∀ hint, vertex.aliasHint = some hint -> allowed hint

/-- A contributor that suggests at most an allowed name. -/
def Contributor.Suggests
    (contributor : Contributor)
    (allowed : String -> Prop) : Prop :=
  ∀ hint, contributor.aliasHint = some hint -> allowed hint

/-- A vertex that is made for a contributor has the alias that this one suggests. -/
theorem Contributor.Suggests.bare
    {contributor : Contributor}
    {allowed : String -> Prop}
    {vertex : Vertex}
    (suggests : contributor.Suggests allowed)
    (label : vertex.Unlabelled)
    (same : vertex.aliasHint = contributor.aliasHint) :
    vertex.Bare allowed where
  label := label
  aliasHint hint found := suggests hint (same.symm.trans found)

namespace JoinGraph

/-- All vertices are without labels, and only allowed names are suggested for them. -/
def Bare
    (allowed : String -> Prop)
    (graph : JoinGraph) : Prop :=
  ∀ id vertex, graph.vertex? id = some vertex -> vertex.Bare allowed

variable {graph before after : JoinGraph} {allowed : String -> Prop}

theorem bare_empty (allowed : String -> Prop) : (JoinGraph.mk #[]).Bare allowed := by
  intro id vertex found
  cases found

namespace Bare

theorem modify
    {change : Vertex -> Vertex}
    (bare : graph.Bare allowed)
    (id : VertexId)
    (keeps : ∀ vertex, vertex.Bare allowed -> (change vertex).Bare allowed) :
    (graph.modify id change).Bare allowed := by
  intro other vertex found
  rw [vertex?_modify] at found
  split at found
  · obtain ⟨earlier, earlierFound, rfl⟩ := Option.map_eq_some_iff.mp found
    exact keeps earlier (bare other earlier earlierFound)
  · exact bare other vertex found

theorem modifyAll
    {change : Vertex -> Vertex}
    {ids : List VertexId}
    (bare : graph.Bare allowed)
    (keeps : ∀ vertex, vertex.Bare allowed -> (change vertex).Bare allowed) :
    (graph.modifyAll ids change).Bare allowed := by
  unfold JoinGraph.modifyAll
  induction ids generalizing graph with
  | nil => exact bare
  | cons id ids inductionHypothesis => exact inductionHypothesis (bare.modify id keeps)

theorem setUsed
    (bare : graph.Bare allowed)
    (id : VertexId) :
    (graph.setUsed id).Bare allowed :=
  bare.modifyAll fun _ kept => ⟨kept.label, kept.aliasHint⟩

theorem setFetched
    (bare : graph.Bare allowed)
    (id : VertexId) :
    (graph.setFetched id).Bare allowed :=
  modifyAll (bare.modify id fun _ kept => ⟨kept.label, kept.aliasHint⟩)
    fun _ kept => ⟨kept.label, kept.aliasHint⟩

theorem addRoot
    {root : Vertex}
    (bare : graph.Bare allowed)
    (bareRoot : root.Bare allowed) :
    (graph.addRoot root).2.Bare allowed := by
  intro other vertex found
  rw [vertex?_addRoot] at found
  split at found
  · cases found
    exact bareRoot
  · exact bare other vertex found

theorem attach
    {vertex : Vertex}
    (bare : graph.Bare allowed)
    (parent : VertexId)
    (bareVertex : vertex.Bare allowed) :
    (graph.attach parent vertex).2.Bare allowed := by
  have added : (graph.addRoot { vertex with parent := some parent }).2.Bare allowed :=
    bare.addRoot ⟨bareVertex.label, bareVertex.aliasHint⟩
  exact added.modify parent fun _ kept => ⟨kept.label, kept.aliasHint⟩

/-- A resolved request leaves at most its own suggestion behind. -/
theorem resolve
    {contributor : Contributor}
    {parent : VertexId}
    {targetType : String}
    {resolution : Resolution}
    (bare : before.Bare allowed)
    (suggests : contributor.Suggests allowed)
    (done : resolve parent (contributor.request targetType) before = .ok resolution after) :
    after.Bare allowed := by
  rcases resolve_eq_ok.mp done with ⟨-, -, rfl⟩ | ⟨existing, -, -, -, rfl⟩
  · have created : ∀ statement, (Vertex.ofRequest (contributor.request targetType) statement).Bare
        allowed := fun statement => suggests.bare ⟨rfl, rfl⟩ rfl
    unfold create
    simp only
    split
    · exact (bare.attach parent (created _)).setUsed _
    · exact bare.attach parent (created _)
  · have merged : (before.modify existing fun vertex =>
        vertex.mergeRequest (contributor.request targetType)).Bare allowed := by
      refine bare.modify existing fun vertex kept => ⟨kept.label, fun hint found => ?_⟩
      rcases Option.or_eq_some_iff.mp found with requested | ⟨-, earlier⟩
      · exact suggests hint requested
      · exact kept.aliasHint hint earlier
    unfold merge
    simp only
    split
    · exact merged.setUsed existing
    · exact merged

theorem fetchVertex
    {parent : VertexId}
    {field : Field}
    {target : String}
    {direction : JoinDirection}
    {collection : CollectionFetch}
    (bare : graph.Bare allowed) :
    (graph.fetchVertex parent field target direction collection).2.Bare allowed := by
  unfold JoinGraph.fetchVertex
  simp only
  split
  · exact bare.modify _ fun _ kept => ⟨kept.label, kept.aliasHint⟩
  · exact bare.attach parent ⟨⟨rfl, rfl⟩, fun _ contrary => by cases contrary⟩

/-- No step but that of a root suggests more than its contributor does. -/
theorem step
    {event : GraphEvent}
    (bare : before.Bare allowed)
    (step : before.Step event after)
    (rootless : ∀ id, event ≠ .root id)
    (suggests : ∀ {contributor parent id}, event = .granted contributor parent id ->
      contributor.Suggests allowed) :
    after.Bare allowed := by
  cases step with
  | root recordType aliasHint statement => exact absurd rfl (rootless _)
  | request older isRequest done => exact bare.resolve (suggests rfl) done
  | fetch target older name => exact bare.fetchVertex.setFetched _
  | reference present => exact bare.setUsed _

theorem steps
    {history : List GraphEvent}
    (bare : before.Bare allowed)
    (steps : before.Steps history after)
    (rootless : ∀ {id}, GraphEvent.root id ∉ history)
    (suggests : ∀ {contributor parent id}, GraphEvent.granted contributor parent id ∈ history ->
      contributor.Suggests allowed) :
    after.Bare allowed := by
  induction steps with
  | none => exact bare
  | next earlier step inductionHypothesis =>
      refine Bare.step (inductionHypothesis ?_ ?_) step ?_ ?_
      · exact fun member => rootless (List.mem_cons_of_mem _ member)
      · exact fun member => suggests (List.mem_cons_of_mem _ member)
      · rintro id rfl
        exact rootless List.mem_cons_self
      · rintro contributor parent id rfl
        exact suggests List.mem_cons_self

end Bare
end JoinGraph
end QueryGraph
