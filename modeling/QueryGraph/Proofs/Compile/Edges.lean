import QueryGraph.Proofs.Compile.Pruning

/-!
# The edges of a result

An edge of a result says what its contributors say together: the declared joins whose vertex it
leads to, the navigations that were compiled to that vertex, and the fetches that load it. An
edge that carries a condition, or that a join asked for itself, has that join as its only
contributor and says what the join declares.
-/

namespace QueryGraph

namespace CompiledGraph

variable {compiled : CompiledGraph} {tree : Tree} {history : List GraphEvent} {id : VertexId}
  {vertex : Vertex}

theorem Tells.aggregates
    (tells : compiled.Tells tree history)
    (found : compiled.graph.vertex? id = some vertex)
    (below : vertex.isRoot = false) :
    Aggregates (compiled.Contributes tree id) vertex.edge := by
  have asks : JoinGraph.Asks history id = compiled.Contributes tree id :=
    funext fun _ => propext tells.asks
  rw [← asks]
  exact tells.chronicle.aggregates_of_vertex? found below

/-- The events that load a vertex are the declared fetches of a result. -/
theorem Tells.exists_isFetch_iff
    {place : VertexId -> Prop}
    (tells : compiled.Tells tree history) :
    (∃ event ∈ history, event.isFetch = true ∧ place event.id) ↔
      ∃ fetch declared target, compiled.Contributes tree target (.fetch fetch declared) ∧
        place target := by
  simp only [← tells.asks]
  constructor
  · rintro ⟨event, member, isFetch, here⟩
    cases event with
    | granted contributor parent target =>
        cases contributor with
        | fetch fetch declared => exact ⟨fetch, declared, target, ⟨parent, member⟩, here⟩
        | _ => cases isFetch
    | _ => cases isFetch
  · rintro ⟨fetch, declared, target, ⟨parent, member⟩, here⟩
    exact ⟨_, member, rfl, here⟩

theorem Tells.fetched_iff
    (tells : compiled.Tells tree history)
    (found : compiled.graph.vertex? id = some vertex) :
    vertex.fetched = true ↔
      ∃ fetch declared, compiled.Contributes tree id (.fetch fetch declared) := by
  have marked : compiled.graph.Marked Vertex.fetched id ↔ vertex.fetched = true :=
    JoinGraph.marked_iff found
  rw [← marked, tells.chronicle.fetched, tells.exists_isFetch_iff]
  simp only [exists_eq_right']

/-- A vertex that is no root is explicit when a join is declared for it or something is fetched
at or below it. -/
theorem Tells.explicit_iff
    (tells : compiled.Tells tree history)
    (found : compiled.graph.vertex? id = some vertex)
    (below : vertex.isRoot = false) :
    vertex.explicit = true ↔
      (∃ source declared, compiled.Contributes tree id (.join source declared)) ∨
        ∃ fetch declared target, compiled.Contributes tree target (.fetch fetch declared) ∧
          compiled.graph.Under target id := by
  have marked : compiled.graph.Marked Vertex.explicit id ↔ vertex.explicit = true :=
    JoinGraph.marked_iff found
  rw [← marked, tells.chronicle.explicit, ← tells.exists_isFetch_iff]
  refine or_congr_left ?_
  simp only [← tells.asks]
  constructor
  · rintro ⟨event, member, declares, rfl⟩
    cases event with
    | root place =>
        have isRoot := (tells.chronicle.isRoot_iff found).mpr member
        rw [isRoot] at below
        cases below
    | granted contributor parent place =>
        cases contributor with
        | join source declared => exact ⟨source, declared, parent, member⟩
        | _ => cases declares
    | reference place => cases declares
  · rintro ⟨source, declared, parent, member⟩
    exact ⟨_, member, rfl, rfl⟩

/-- A vertex is that of one declared join alone, and its edge is as the join declares it. -/
structure MadeFor
    (compiled : CompiledGraph)
    (tree : Tree)
    (id : VertexId)
    (vertex : Vertex)
    (source : NodeId)
    (declared : JoinDeclaration) : Prop where
  only : ∀ contributor, compiled.Contributes tree id contributor ↔
    contributor = .join source declared
  direction : vertex.direction = declared.direction
  mode : vertex.mode = declared.mode
  aliasHint : vertex.aliasHint = declared.aliasHint
  on : vertex.on = declared.on
  unfetched : vertex.fetched = false

/-- A join that may not share its edge has one that is made for it. -/
theorem Tells.madeFor
    {source : NodeId}
    {declared : JoinDeclaration}
    (tells : compiled.Tells tree history)
    (found : compiled.graph.vertex? id = some vertex)
    (contributes : compiled.Contributes tree id (.join source declared))
    (exclusive : (Contributor.join source declared).isExclusive = true) :
    compiled.MadeFor tree id vertex source declared := by
  obtain ⟨parent, member⟩ := tells.asks.mpr contributes
  obtain ⟨again, foundAgain, hangs⟩ := tells.chronicle.granted member
  rw [found] at foundAgain
  cases foundAgain
  have aggregates := tells.aggregates found (by simp [Vertex.isRoot, hangs])
  have only : ∀ contributor, compiled.Contributes tree id contributor ↔
      contributor = .join source declared := by
    intro contributor
    constructor
    · exact fun other => aggregates.alone contributes other exclusive
    · rintro rfl
      exact contributes
  obtain ⟨direction, mode, aliasHint, on⟩ := aggregates.eq_of_isExclusive contributes exclusive
  refine ⟨only, direction, mode, aliasHint, on, Bool.eq_false_iff.mpr fun fetched => ?_⟩
  obtain ⟨fetch, loaded, other⟩ := (tells.fetched_iff found).mp fetched
  cases (only _).mp other

end CompiledGraph

namespace Tree

variable {tree held : Tree} {schema : Schema} {config : CompilerConfig} {owner : Owner}
  {compiled : CompiledGraph} {id : VertexId} {vertex : Vertex}

/-- The edge of a vertex that is no root says what its contributors say together, whatever the
order in which they came: their common direction, or an inner one when they differ; the alias
that a join suggests; the mode of a join that creates a new edge, and otherwise whether a join
requires the edge. The vertex is explicit when a join is declared for it or something is fetched
at or below it. -/
theorem compiled_edge_aggregates
    (reachable : tree.Reachable)
    (done : tree.compile schema config owner = (.ok compiled, held))
    (found : compiled.graph.vertex? id = some vertex)
    (below : vertex.isRoot = false) :
    (∃ contributor, compiled.Contributes tree id contributor) ∧
      (∀ direction, (∀ contributor, compiled.Contributes tree id contributor ->
        contributor.direction = direction) -> vertex.direction = direction) ∧
      (∀ first second, compiled.Contributes tree id first ->
        compiled.Contributes tree id second -> first.direction ≠ second.direction ->
          vertex.direction = .inner) ∧
      (∀ name, vertex.aliasHint = some name ↔
        ∃ source declared, compiled.Contributes tree id (.join source declared) ∧
          declared.aliasHint = some name) ∧
      (∀ source declared, compiled.Contributes tree id (.join source declared) ->
        declared.mode.isNew = true -> vertex.mode = declared.mode) ∧
      ((∀ source declared, compiled.Contributes tree id (.join source declared) ->
        declared.mode.isNew = false) ->
          (vertex.mode = .requiredToMergeExisting ∧ ∃ source declared,
            compiled.Contributes tree id (.join source declared) ∧
              declared.mode.isRequired = true) ∨
          (vertex.mode = .optionallyMergeExisting ∧ ¬ ∃ source declared,
            compiled.Contributes tree id (.join source declared) ∧
              declared.mode.isRequired = true)) ∧
      (vertex.explicit = true ↔
        (∃ source declared, compiled.Contributes tree id (.join source declared)) ∨
          ∃ fetch declared target, compiled.Contributes tree target (.fetch fetch declared) ∧
            compiled.graph.Under target id) := by
  obtain ⟨history, tells⟩ := compile_tells reachable done
  have aggregates := tells.aggregates found below
  refine ⟨aggregates.inhabited, fun _ => aggregates.agreed, fun _ _ => aggregates.disagreed,
    fun _ => aggregates.aliasHint_iff_join, ?_, ?_, ?_⟩
  · intro source declared contributes isNew
    exact aggregates.mode_eq contributes (by simp [Contributor.isExclusive, Contributor.mode, isNew])
  · intro shared
    have required := aggregates.isRequired_iff_join
    rcases aggregates.mode_eq_or shared with ⟨mode, isRequired⟩ | ⟨mode, isOptional⟩
    · exact Or.inl ⟨mode, required.mp isRequired⟩
    · exact Or.inr ⟨mode, fun demanded => by simp [required.mpr demanded] at isOptional⟩
  · exact tells.explicit_iff found below

/-- Two of the joins share an edge. They differ in their direction, and one is required. -/
theorem teammates_edge_aggregates :
    ∃ compiled held vertex,
      teammates.compile crew {} ⟨8⟩ = (.ok compiled, held) ∧
        compiled.graph.vertex? ⟨1⟩ = some vertex ∧ vertex.isRoot = false ∧
        vertex.direction = .inner ∧ vertex.explicit = true := by
  have succeeds : (match (teammates.compile crew {} ⟨8⟩).1 with
      | .ok compiled => (compiled.graph.vertex? ⟨1⟩).any fun vertex => decide
          (vertex.isRoot = false ∧ compiled.sources.find? ⟨2⟩ = some ⟨1⟩ ∧
            compiled.sources.find? ⟨3⟩ = some ⟨1⟩)
      | .error _ => false) = true := by
    cbv
  have first : teammates.join? ⟨2⟩ =
      some ⟨⟨1⟩, "team", .left, .optionallyMergeExisting, none, none⟩ := by
    cbv
  have second : teammates.join? ⟨3⟩ =
      some ⟨⟨1⟩, "team", .inner, .requiredToMergeExisting, none, none⟩ := by
    cbv
  cases outcome : teammates.compile crew {} ⟨8⟩ with
  | mk result held =>
      rw [outcome] at succeeds
      cases result with
      | error error => cases succeeds
      | ok compiled =>
          obtain ⟨vertex, found, checks⟩ := (Option.any_eq_true _ _).mp succeeds
          obtain ⟨below, firstFound, secondFound⟩ := of_decide_eq_true checks
          obtain ⟨-, -, disagreed, -, -, -, explicit⟩ :=
            compiled_edge_aggregates ⟨.query, _, rfl⟩ outcome found below
          exact ⟨compiled, held, vertex, rfl, found, below,
            disagreed (.join ⟨2⟩ _) (.join ⟨3⟩ _) ⟨first, firstFound⟩ ⟨second, secondFound⟩
              (by decide),
            explicit.mpr (Or.inl ⟨_, _, first, firstFound⟩)⟩

/-- An edge that carries a condition, or that is not to be shared, is made for one declared join
alone. Every join that carries a condition or asks for an edge of its own has such an edge, and
the edge is kept when it carries a condition. -/
theorem compiled_edge_isolated
    (reachable : tree.Reachable)
    (done : tree.compile schema config owner = (.ok compiled, held)) :
    (∀ id vertex, compiled.graph.vertex? id = some vertex ->
      (vertex.on.isSome = true ∨ vertex.mode.isNew = true) ->
        ∃ source declared, compiled.MadeFor tree id vertex source declared) ∧
    ∀ source declared, compiled.Joins tree source declared ->
      (declared.on.isSome = true ∨ declared.mode.isNew = true) ->
        ∃ id vertex, compiled.graph.vertex? id = some vertex ∧
          compiled.MadeFor tree id vertex source declared ∧
          (declared.on.isSome = true -> vertex.used = true) := by
  obtain ⟨history, tells⟩ := compile_tells reachable done
  obtain ⟨_, _, _, _, _, complete⟩ := compile_recounts reachable done
  constructor
  · intro id vertex found isolated
    have below := tells.chronicle.isRoot_eq_false found isolated
    obtain ⟨source, declared, contributes, exclusive⟩ :=
      (tells.aggregates found below).exists_only_join isolated
    exact ⟨source, declared, tells.madeFor found contributes exclusive⟩
  · rintro source declared joins isolated
    have isJoin := joins.join?
    obtain ⟨body, present, -, entered⟩ := joins
    obtain ⟨place, declaredAt⟩ := complete present entered
    have contributes : compiled.Contributes tree place (.join source declared) :=
      ⟨isJoin, declaredAt⟩
    obtain ⟨parent, member⟩ := tells.asks.mpr contributes
    obtain ⟨vertex, found, -⟩ := tells.chronicle.granted member
    have exclusive : (Contributor.join source declared).isExclusive = true := by
      simpa [Contributor.isExclusive, Contributor.on, Contributor.mode, or_comm] using isolated
    refine ⟨place, vertex, found, tells.madeFor found contributes exclusive, fun conditioned => ?_⟩
    have uses : (GraphEvent.granted (.join source declared) parent place).uses = true := by
      simp [GraphEvent.uses, Contributor.keeps, Contributor.on, conditioned]
    have used : compiled.graph.Marked Vertex.used place :=
      tells.chronicle.used.mpr (Or.inl ⟨_, member, uses, rfl⟩)
    exact (JoinGraph.marked_iff found).mp used

/-- The join that asks for an edge of its own has one. -/
theorem teammates_edge_isolated :
    ∃ compiled held id vertex,
      teammates.compile crew {} ⟨8⟩ = (.ok compiled, held) ∧
        compiled.graph.vertex? id = some vertex ∧
        compiled.MadeFor teammates id vertex ⟨4⟩
          ⟨⟨1⟩, "team", .left, .optionallyCreateNew, none, none⟩ := by
  have succeeds : (match (teammates.compile crew {} ⟨8⟩).1 with
      | .ok compiled => decide (top ∈ compiled.statements)
      | .error _ => false) = true := by
    cbv
  cases outcome : teammates.compile crew {} ⟨8⟩ with
  | mk result held =>
      rw [outcome] at succeeds
      cases result with
      | error error => cases succeeds
      | ok compiled =>
          have joins : compiled.Joins teammates ⟨4⟩
              ⟨⟨1⟩, "team", .left, .optionallyCreateNew, none, none⟩ :=
            ⟨{ statement := top, kind := _ }, by cbv, rfl, of_decide_eq_true succeeds⟩
          obtain ⟨id, vertex, found, madeFor, -⟩ :=
            (compiled_edge_isolated ⟨.query, _, rfl⟩ outcome).2 _ _ joins (Or.inr rfl)
          exact ⟨compiled, held, id, vertex, rfl, found, madeFor⟩

end Tree
end QueryGraph
