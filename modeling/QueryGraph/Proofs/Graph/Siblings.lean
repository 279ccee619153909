import QueryGraph.Proofs.Graph.Recount

/-!
# Sibling edges

Requests that may share an edge look for one first, so few edges lead from a vertex over one
relation. As long as only declared joins ask for edges, at most one of them may be shared.
Navigations pass by an edge with a condition, so they may add one that has none; from then on
there is at most one of either kind.
-/

namespace QueryGraph

namespace Vertex

/-- An edge that may be shared and carries a condition. -/
def Conditioned (edge : Vertex) : Prop := edge.mode.isNew = false ∧ edge.on.isSome = true

/-- An edge that may be shared and carries no condition. -/
def Free (edge : Vertex) : Prop := edge.mode.isNew = false ∧ edge.on = none

variable {edge : Vertex} {contributor : Contributor}

theorem Free.of_share (free : (contributor.share edge).Free) : edge.Free :=
  ⟨(contributor.isNew_share edge).symm.trans free.1, free.2⟩

theorem Conditioned.of_share (conditioned : (contributor.share edge).Conditioned) :
    edge.Conditioned :=
  ⟨(contributor.isNew_share edge).symm.trans conditioned.1, conditioned.2⟩

end Vertex

namespace JoinGraph

/-- At most one edge of a kind leads from a vertex over each relation. -/
structure Sole
    (graph : JoinGraph)
    (kind : Vertex -> Prop) : Prop where
  eq : ∀ {first second edge other parent}, graph.edge? first = some edge ->
    graph.edge? second = some other -> edge.parent = some parent ->
    other.parent = some parent -> edge.field = other.field ->
    kind edge -> kind other -> first = second

namespace Sole

variable {before after : JoinGraph} {contributor : Contributor} {parent id : VertexId}
  {kind : Vertex -> Prop}

theorem mono
    {narrower : Vertex -> Prop}
    (sole : before.Sole kind)
    (implies : ∀ {edge}, narrower edge -> kind edge) :
    before.Sole narrower where
  eq firstFound secondFound firstHangs secondHangs field first second :=
    sole.eq firstFound secondFound firstHangs secondHangs field (implies first) (implies second)

theorem of_edges
    (sole : before.Sole kind)
    (edges : ∀ other, after.edge? other = before.edge? other) :
    after.Sole kind := by
  constructor
  intro first second edge other above firstFound secondFound
  rw [edges] at firstFound secondFound
  exact sole.eq firstFound secondFound

/-- A root hangs off nothing, so it is no sibling. -/
theorem of_bare
    {root : Vertex}
    (sole : before.Sole kind)
    (bare : root.IsBare)
    (edges : ∀ other, after.edge? other = if other = id then some root else before.edge? other) :
    after.Sole kind := by
  have old : ∀ {place edge above}, after.edge? place = some edge -> edge.parent = some above ->
      before.edge? place = some edge := by
    intro place edge above found hangs
    rw [edges] at found
    split at found
    · cases found
      exact absurd bare (Vertex.not_isBare_of_parent hangs)
    · exact found
  constructor
  intro first second edge other above firstFound secondFound firstHangs secondHangs
  exact sole.eq (old firstFound firstHangs) (old secondFound secondHangs) firstHangs secondHangs

/-- An edge that is shared keeps its place and its relation. -/
theorem of_share
    {shared : Vertex}
    (sole : before.Sole kind)
    (keeps : ∀ {edge}, kind (contributor.share edge) -> kind edge)
    (found : before.edge? id = some shared)
    (edges : ∀ other, after.edge? other =
      if other = id then some (contributor.share shared) else before.edge? other) :
    after.Sole kind := by
  have old : ∀ {place edge}, after.edge? place = some edge ->
      ∃ earlier, before.edge? place = some earlier ∧ earlier.parent = edge.parent ∧
        earlier.field = edge.field ∧ (kind edge -> kind earlier) := by
    intro place edge present
    rw [edges] at present
    split at present
    · next here =>
        cases present
        rw [here]
        exact ⟨shared, found, rfl, rfl, keeps⟩
    · exact ⟨edge, present, rfl, rfl, fun same => same⟩
  constructor
  intro first second edge other above firstFound secondFound firstHangs secondHangs field
    firstKind secondKind
  obtain ⟨earlier, earlierFound, earlierParent, earlierField, earlierKind⟩ := old firstFound
  obtain ⟨further, furtherFound, furtherParent, furtherField, furtherKind⟩ := old secondFound
  exact sole.eq earlierFound furtherFound (earlierParent.trans firstHangs)
    (furtherParent.trans secondHangs) (by rw [earlierField, furtherField, field])
    (earlierKind firstKind) (furtherKind secondKind)

/-- An edge of its own is alone, or of another kind. -/
theorem of_own
    {recordType : String}
    {statement : NodeId}
    (sole : before.Sole kind)
    (alone : kind (contributor.edge recordType statement parent) ->
      ∀ {place edge}, before.edge? place = some edge -> edge.parent = some parent ->
        edge.field = some contributor.field -> ¬ kind edge)
    (edges : ∀ other, after.edge? other =
      if other = id then some (contributor.edge recordType statement parent)
      else before.edge? other) :
    after.Sole kind := by
  constructor
  intro first second edge other above firstFound secondFound firstHangs secondHangs field
    firstKind secondKind
  rw [edges] at firstFound secondFound
  split at firstFound
  · next firstNew =>
      cases firstFound
      cases firstHangs
      split at secondFound
      · next secondNew => rw [firstNew, secondNew]
      · exact absurd secondKind (alone firstKind secondFound secondHangs field.symm)
  · split at secondFound
    · cases secondFound
      cases secondHangs
      exact absurd firstKind (alone secondKind firstFound firstHangs field)
    · exact sole.eq firstFound secondFound firstHangs secondHangs field firstKind secondKind

/-- A contributor that is granted a vertex leaves one edge of a kind, unless it adds one next
to another. -/
theorem of_seats
    (sole : before.Sole kind)
    (seats : before.Seats contributor parent id after)
    (keeps : ∀ {edge}, kind (contributor.share edge) -> kind edge)
    (alone : id = ⟨before.size⟩ -> ∀ {recordType statement},
      kind (contributor.edge recordType statement parent) ->
        ∀ {place edge}, before.edge? place = some edge -> edge.parent = some parent ->
          edge.field = some contributor.field -> ¬ kind edge) :
    after.Sole kind := by
  obtain ⟨edge, edges, ⟨new, recordType, statement, rfl⟩ | ⟨shared, found, -, -, rfl⟩⟩ := seats
  · exact sole.of_own (alone new) edges
  · exact sole.of_share keeps found edges

end Sole

/-- An edge that was passed by when one was sought to be shared creates a new one, or carries a
condition that a navigation does not share. -/
theorem passed_of_candidate?
    {graph : JoinGraph}
    {contributor : Contributor}
    {parent place : VertexId}
    {targetType : String}
    {edge : Vertex}
    (forest : graph.Forest)
    (candidate : graph.candidate? parent (contributor.request targetType) = none)
    (merges : contributor.mode.isNew = false)
    (found : graph.edge? place = some edge)
    (hangs : edge.parent = some parent)
    (field : edge.field = some contributor.field) :
    edge.mode.isNew = true ∨ contributor.isJoin = false ∧ edge.on.isSome = true := by
  obtain ⟨vertex, present, rfl⟩ := edge?_eq_some.mp found
  unfold candidate? at candidate
  rw [if_neg (by simp [Contributor.request, merges])] at candidate
  have listed := forest.listed.mpr ⟨vertex, present, hangs⟩
  have passed := List.find?_eq_none.mp candidate place listed
  change vertex.field = _ at field
  change vertex.mode.isNew = true ∨ _ ∧ vertex.on.isSome = true
  cases isNew : vertex.mode.isNew with
  | true => exact Or.inl rfl
  | false =>
      cases isJoin : contributor.isJoin with
      | true => simp [present, Vertex.isMergeable, field, Contributor.request, isJoin, isNew] at passed
      | false =>
          refine Or.inr ⟨rfl, ?_⟩
          cases on : vertex.on with
          | none =>
              simp [present, Vertex.isMergeable, field, Contributor.request, isNew, on] at passed
          | some condition => rfl

/-- A request that is given a new vertex found none to share. -/
theorem candidate?_of_new
    {before after : JoinGraph}
    {contributor : Contributor}
    {parent : VertexId}
    {targetType : String}
    {resolution : Resolution}
    (done : JoinGraph.resolve parent (contributor.request targetType) before =
      .ok resolution after)
    (new : resolution.id = ⟨before.size⟩) :
    before.candidate? parent (contributor.request targetType) = none := by
  rcases resolve_eq_ok.mp done with ⟨candidate, -, -⟩ | ⟨existing, candidate, -, rfl, -⟩
  · exact candidate
  · obtain ⟨-, vertex, -, -, present, -⟩ := candidate?_eq_some candidate
    have below := lt_size_of_vertex? present
    change existing = _ at new
    rw [new] at below
    exact absurd below (Nat.lt_irrefl _)

/-- No two edges that may be shared lead from one vertex over one relation. -/
structure OneShared (graph : JoinGraph) : Prop where
  eq : ∀ {first second edge other parent}, graph.edge? first = some edge ->
    graph.edge? second = some other -> edge.parent = some parent ->
    other.parent = some parent -> edge.field = other.field ->
    edge.mode.isNew = false -> other.mode.isNew = false -> first = second

theorem oneShared_iff
    {graph : JoinGraph} :
    graph.OneShared ↔ graph.Sole fun edge => edge.mode.isNew = false :=
  ⟨fun unique => ⟨unique.eq⟩, fun sole => ⟨sole.eq⟩⟩

namespace OneShared

variable {before after : JoinGraph} {contributor : Contributor} {parent : VertexId}

theorem conditioned (unique : before.OneShared) : before.Sole Vertex.Conditioned :=
  (oneShared_iff.mp unique).mono And.left

theorem free (unique : before.OneShared) : before.Sole Vertex.Free :=
  (oneShared_iff.mp unique).mono And.left

/-- A declared join that is granted a vertex leaves one edge to be shared. -/
theorem resolve
    {targetType : String}
    {resolution : Resolution}
    (unique : before.OneShared)
    (forest : before.Forest)
    (older : parent.index < before.size)
    (isJoin : contributor.isJoin = true)
    (done : JoinGraph.resolve parent (contributor.request targetType) before =
      .ok resolution after) :
    after.OneShared := by
  have isRequest : contributor.isFetch = false := by
    cases contributor <;> first | rfl | cases isJoin
  refine oneShared_iff.mpr ((oneShared_iff.mp unique).of_seats
    (grants_resolve forest older isRequest done).edges ?_ ?_)
  · intro edge shared
    rwa [contributor.isNew_share] at shared
  · intro new recordType statement merges place edge found hangs field
    rcases passed_of_candidate? forest (candidate?_of_new done new) merges found hangs field with
      isNew | ⟨contrary, -⟩
    · simp [isNew]
    · rw [isJoin] at contrary
      cases contrary

/-- Only a declared join or a reference to a vertex happens. -/
theorem step
    {event : GraphEvent}
    (unique : before.OneShared)
    (forest : before.Forest)
    (joins : ∀ {contributor parent id}, event = .granted contributor parent id ->
      contributor.isJoin = true)
    (step : before.Step event after) :
    after.OneShared := by
  have effect := step.effect forest
  cases step with
  | root recordType aliasHint statement =>
      obtain ⟨-, root, bare, edges⟩ := effect.edges
      exact oneShared_iff.mpr ((oneShared_iff.mp unique).of_bare bare edges)
  | request older isRequest done => exact unique.resolve forest older (joins rfl) done
  | fetch target older name => cases joins rfl
  | reference present =>
      exact oneShared_iff.mpr ((oneShared_iff.mp unique).of_edges effect.edges)

end OneShared

theorem Steps.oneShared
    {history : List GraphEvent}
    {graph : JoinGraph}
    (steps : JoinGraph.Steps {} history graph)
    (joins : ∀ {contributor parent id}, GraphEvent.granted contributor parent id ∈ history ->
      contributor.isJoin = true) :
    graph.OneShared := by
  induction steps with
  | none =>
      constructor
      intro first second edge other parent found
      simp [edge?, vertex?] at found
  | next earlier step inductionHypothesis =>
      have unique := inductionHypothesis fun member => joins (List.mem_cons_of_mem _ member)
      refine unique.step (earlier.forest forest_empty) ?_ step
      rintro contributor parent id rfl
      exact joins List.mem_cons_self

/-- A contributor without a condition adds no edge with one. -/
theorem Steps.sole_conditioned
    {history : List GraphEvent}
    {before after : JoinGraph}
    (steps : before.Steps history after)
    (forest : before.Forest)
    (sole : before.Sole Vertex.Conditioned)
    (unconditioned : ∀ {contributor parent id}, GraphEvent.granted contributor parent id ∈ history ->
      contributor.on = .none) :
    after.Sole Vertex.Conditioned := by
  induction steps with
  | none => exact sole
  | next earlier step inductionHypothesis =>
      have soleBetween := inductionHypothesis fun member =>
        unconditioned (List.mem_cons_of_mem _ member)
      have effect := step.effect (earlier.forest forest)
      have edges := effect.edges
      rename_i event between after
      cases event with
      | root new =>
          obtain ⟨-, root, bare, same⟩ := edges
          exact soleBetween.of_bare bare same
      | reference place => exact soleBetween.of_edges edges
      | granted contributor parent id =>
          refine soleBetween.of_seats edges.1 Vertex.Conditioned.of_share ?_
          intro _ recordType statement conditioned
          have free : contributor.on = .none := unconditioned List.mem_cons_self
          have carried : contributor.on.isSome = true := conditioned.2
          rw [free] at carried
          cases carried

/-- As long as only navigations ask for edges, at most one edge without a condition that may be
shared leads from a vertex over each relation. -/
theorem Steps.sole_free
    {history : List GraphEvent}
    {before after : JoinGraph}
    (steps : before.Steps history after)
    (forest : before.Forest)
    (sole : before.Sole Vertex.Free)
    (navigations : ∀ {contributor parent id}, GraphEvent.granted contributor parent id ∈ history ->
      ∃ name, contributor = .navigation name) :
    after.Sole Vertex.Free := by
  induction steps with
  | none => exact sole
  | next earlier step inductionHypothesis =>
      have soleBetween := inductionHypothesis fun member =>
        navigations (List.mem_cons_of_mem _ member)
      have forestBetween := earlier.forest forest
      have edges := (step.effect forestBetween).edges
      cases step with
      | root recordType aliasHint statement =>
          obtain ⟨-, root, bare, same⟩ := edges
          exact soleBetween.of_bare bare same
      | reference present => exact soleBetween.of_edges edges
      | fetch target older name =>
          obtain ⟨_, contrary⟩ := navigations List.mem_cons_self
          cases contrary
      | request older isRequest done =>
          obtain ⟨name, rfl⟩ := navigations List.mem_cons_self
          refine soleBetween.of_seats edges.1 Vertex.Free.of_share ?_
          intro new recordType statement _ place edge found hangs field free
          have candidate := candidate?_of_new done new
          rcases passed_of_candidate? forestBetween candidate rfl found hangs field with
            isNew | ⟨-, conditioned⟩
          · rw [free.1] at isNew
            cases isNew
          · rw [free.2] at conditioned
            cases conditioned

end JoinGraph

namespace GraphState

variable {state : GraphState} {tree : Tree} {history : List GraphEvent}
  {source other : NodeId} {declared otherDeclared : JoinDeclaration} {id otherId : VertexId}

/-- The vertex of a declared join hangs off that of the source above. -/
theorem Recounts.join
    (recounts : state.Recounts tree history)
    (isJoin : tree.join? source = some declared)
    (found : state.declared.find? source = some id) :
    ∃ parent edge, state.declared.find? declared.parent = some parent ∧
      state.graph.edge? id = some edge ∧ edge.parent = some parent ∧
      Aggregates (JoinGraph.Asks history id) edge ∧
      JoinGraph.Asks history id (.join source declared) := by
  have chronicle := recounts.steps.chronicle
  obtain ⟨parent, member⟩ := recounts.granted isJoin found
  obtain ⟨_, _, same, -, -, above⟩ := recounts.declaredBy member
  cases same
  obtain ⟨edge, edgeFound, hangs⟩ := JoinGraph.hangsOff_iff.mp (chronicle.granted member)
  exact ⟨parent, edge, above, edgeFound, hangs, chronicle.aggregates edgeFound hangs, parent, member⟩

/-- Two declared joins share an edge exactly when they hang off one vertex over one relation
and none of them asks for an edge of its own. -/
theorem Recounts.eq_iff
    (recounts : state.Recounts tree history)
    (isJoin : tree.join? source = some declared)
    (otherIs : tree.join? other = some otherDeclared)
    (distinct : source ≠ other)
    (found : state.declared.find? source = some id)
    (otherFound : state.declared.find? other = some otherId) :
    id = otherId ↔
      state.declared.find? declared.parent = state.declared.find? otherDeclared.parent ∧
        declared.field = otherDeclared.field ∧
        declared.mode.isNew = false ∧ otherDeclared.mode.isNew = false := by
  obtain ⟨parent, edge, above, edgeFound, hangs, aggregates, asks⟩ := recounts.join isJoin found
  obtain ⟨otherParent, otherEdge, otherAbove, otherEdgeFound, otherHangs, otherAggregates,
    otherAsks⟩ := recounts.join otherIs otherFound
  constructor
  · rintro rfl
    rw [edgeFound] at otherEdgeFound
    cases otherEdgeFound
    rw [hangs] at otherHangs
    cases otherHangs
    have field := (aggregates.field asks).symm.trans (aggregates.field otherAsks)
    have differs : Contributor.join source declared ≠ .join other otherDeclared := by
      intro same
      cases same
      exact distinct rfl
    have shares := aggregates.isExclusive_eq_false_of_ne asks otherAsks differs
    have otherShares := aggregates.isExclusive_eq_false_of_ne otherAsks asks differs.symm
    exact ⟨above.trans otherAbove.symm, Option.some.inj field,
      (Contributor.isExclusive_eq_false.mp shares).1,
      (Contributor.isExclusive_eq_false.mp otherShares).1⟩
  · rintro ⟨parents, field, merges, otherMerges⟩
    rw [above, otherAbove] at parents
    cases parents
    have unique := recounts.steps.oneShared fun {contributor _ _} member => by
      obtain ⟨_, _, rfl, -⟩ := recounts.declaredBy member
      rfl
    refine unique.eq edgeFound otherEdgeFound hangs otherHangs ?_ ?_ ?_
    · rw [aggregates.field asks, otherAggregates.field otherAsks]
      exact congrArg some field
    · rw [← aggregates.isNew asks]
      exact merges
    · rw [← otherAggregates.isNew otherAsks]
      exact otherMerges

end GraphState
end QueryGraph
