import QueryGraph.Proofs.Graph.Declarations
import QueryGraph.Proofs.Graph.Growth

/-!
# What a resolved request leads to

A request that is granted leads to a vertex over the requested relation, of the type that
the relation leads to, in the statement of the vertex above. A path is never refused a
join.
-/

namespace QueryGraph
namespace JoinGraph

variable {schema : Schema} {graph after : JoinGraph} {parent : VertexId} {request : JoinRequest}

theorem resolve_eq_ok
    {resolution : Resolution} :
    resolve parent request graph = .ok resolution after ↔
      (graph.candidate? parent request = none ∧
        resolution = .created (graph.create parent request).1 ∧
        after = (graph.create parent request).2) ∨
      ∃ existing, graph.candidate? parent request = some existing ∧
        ((graph.vertex? existing).bind fun vertex => vertex.mergeFault? request) = none ∧
        resolution = .merged existing ∧ after = graph.merge existing request := by
  unfold resolve
  rw [Operation.bind_of_ok (Operation.get_apply graph)]
  cases graph.candidate? parent request with
  | none =>
      change EStateM.Result.ok (Resolution.created _) _ = _ ↔ _
      simp only [EStateM.Result.ok.injEq, true_and, reduceCtorEq, false_and, exists_false,
        or_false]
      constructor <;> rintro ⟨rfl, rfl⟩ <;> exact ⟨rfl, rfl⟩
  | some existing =>
      simp only [reduceCtorEq, false_and, false_or]
      cases fault : (graph.vertex? existing).bind fun vertex => vertex.mergeFault? request with
      | some error =>
          simp only [Operation.throw_apply, reduceCtorEq, Option.some.injEq, false_iff]
          rintro ⟨other, rfl, contrary, -⟩
          rw [fault] at contrary
          cases contrary
      | none =>
          change EStateM.Result.ok (Resolution.merged existing) _ = _ ↔ _
          simp only [EStateM.Result.ok.injEq, Option.some.injEq]
          constructor
          · rintro ⟨rfl, rfl⟩
            exact ⟨existing, rfl, fault, rfl, rfl⟩
          · rintro ⟨_, rfl, -, rfl, rfl⟩
            exact ⟨rfl, rfl⟩

/-- A vertex that a request may reuse is one of those below, over the same relation. -/
theorem candidate?_eq_some
    {existing : VertexId}
    (found : graph.candidate? parent request = some existing) :
    ∃ above vertex, graph.vertex? parent = some above ∧ existing ∈ above.children ∧
      graph.vertex? existing = some vertex ∧
      vertex.isMergeable request.field request.origin = true := by
  unfold candidate? findMergeable children at found
  split at found
  · cases found
  · have member := List.mem_of_find?_eq_some found
    have mergeable := List.find?_some found
    cases above : graph.vertex? parent with
    | none =>
        rw [above] at member
        cases member
    | some body =>
        rw [above] at member
        cases present : graph.vertex? existing with
        | none =>
            rw [present] at mergeable
            cases mergeable
        | some vertex =>
            rw [present] at mergeable
            exact ⟨body, vertex, rfl, member, rfl, mergeable⟩

theorem grows_create
    (graph : JoinGraph)
    (parent : VertexId)
    (request : JoinRequest) :
    graph.Grows (graph.create parent request).2 := by
  unfold create
  simp only
  split
  · exact (grows_attach _ _ _).trans (retouched_setUsed _ _).grows
  · exact grows_attach _ _ _

theorem create_spec
    {above : Vertex}
    (parentFound : graph.vertex? parent = some above)
    (coherent : graph.Coherent schema)
    (target : schema.relationTarget above.recordType request.field = .ok request.targetType) :
    graph.Grows (graph.create parent request).2 ∧
      (graph.create parent request).2.Coherent schema ∧
      ∃ below, (graph.create parent request).2.vertex? (graph.create parent request).1 =
          some below ∧ below.recordType = request.targetType ∧
        below.field = some request.field ∧ below.statement = above.statement := by
  have older := lt_size_of_vertex? parentFound
  have statement : ((graph.vertex? parent).map Vertex.statement).getD ⟨0⟩ = above.statement := by
    rw [parentFound]
    rfl
  unfold create
  simp only [statement]
  generalize shape : Vertex.ofRequest request above.statement = vertex
  have grows := grows_attach graph parent vertex
  have coherentAttached : (graph.attach parent vertex).2.Coherent schema := by
    rw [← shape]
    exact coherent_attach coherent parentFound rfl rfl rfl target
  have attached : (graph.attach parent vertex).2.vertex? (graph.attach parent vertex).1 =
      some { vertex with parent := some parent } := by
    rw [vertex?_attach graph parent vertex _ older]
    exact if_pos rfl
  split
  · have retouched := retouched_setUsed (graph.attach parent vertex).2
      (graph.attach parent vertex).1
    refine ⟨grows.trans retouched.grows, retouched.coherent coherentAttached, ?_⟩
    obtain ⟨later, found, type, field, sameStatement⟩ := retouched.grows _ _ attached
    refine ⟨later, found, ?_, ?_, ?_⟩
    · rw [type, ← shape]
      rfl
    · rw [field, ← shape]
      rfl
    · rw [sameStatement, ← shape]
      rfl
  · refine ⟨grows, coherentAttached, _, attached, ?_, ?_, ?_⟩ <;> rw [← shape] <;> rfl

/-- A granted request leads to a vertex of the requested type and of the same statement. -/
theorem resolve_spec
    {above : Vertex}
    {resolution : Resolution}
    (parentFound : graph.vertex? parent = some above)
    (coherent : graph.Coherent schema)
    (target : schema.relationTarget above.recordType request.field = .ok request.targetType)
    (done : resolve parent request graph = .ok resolution after) :
    graph.Grows after ∧ after.Coherent schema ∧
      ∃ below, after.vertex? resolution.id = some below ∧
        below.recordType = request.targetType ∧ below.field = some request.field ∧
        below.statement = above.statement := by
  rcases resolve_eq_ok.mp done with ⟨-, rfl, rfl⟩ | ⟨existing, candidate, -, rfl, rfl⟩
  · exact create_spec parentFound coherent target
  · obtain ⟨body, vertex, found, member, present, mergeable⟩ := candidate?_eq_some candidate
    rw [parentFound] at found
    cases found
    obtain ⟨below, field, belowFound, statement, isField, leads⟩ :=
      coherent parent above parentFound existing member
    rw [present] at belowFound
    cases belowFound
    have sameField : field = request.field := by
      unfold Vertex.isMergeable at mergeable
      simp only [Bool.and_eq_true, decide_eq_true_eq] at mergeable
      rw [isField] at mergeable
      exact Option.some.inj mergeable.1.1
    have retouched := retouched_merge graph existing request
    obtain ⟨later, laterFound, laterType, laterField, laterStatement⟩ :=
      retouched.grows existing vertex present
    refine ⟨retouched.grows, retouched.coherent coherent, later, laterFound, ?_, ?_, ?_⟩
    · rw [sameField, target] at leads
      exact laterType.trans (Except.ok.inj leads).symm
    · rw [laterField, isField, sameField]
    · rw [laterStatement, statement]

theorem grows_resolve
    {resolution : Resolution}
    (done : resolve parent request graph = .ok resolution after) :
    graph.Grows after := by
  rcases resolve_eq_ok.mp done with ⟨-, -, rfl⟩ | ⟨existing, -, -, -, rfl⟩
  · exact grows_create graph parent request
  · exact (retouched_merge graph existing request).grows

/-- A request of a path for a join is always granted. -/
theorem resolve_implicit
    (graph : JoinGraph)
    (parent : VertexId)
    (field target : String) :
    ∃ resolution after,
      resolve parent { field := field, targetType := target, origin := .implicit } graph =
        .ok resolution after := by
  cases candidate : graph.candidate? parent
      { field := field, targetType := target, origin := .implicit } with
  | none => exact ⟨_, _, resolve_eq_ok.mpr (Or.inl ⟨candidate, rfl, rfl⟩)⟩
  | some existing =>
      obtain ⟨-, vertex, -, -, present, mergeable⟩ := candidate?_eq_some candidate
      have unconditional : vertex.on = none := by
        simp only [Vertex.isMergeable, Bool.and_eq_true, Bool.or_eq_true, decide_eq_true_eq,
          reduceCtorEq, false_or] at mergeable
        simpa using mergeable.2
      refine ⟨_, _, resolve_eq_ok.mpr (Or.inr ⟨existing, candidate, ?_, rfl, rfl⟩)⟩
      rw [present]
      simp [Vertex.mergeFault?, unconditional]

end JoinGraph

namespace Graphing

/-- The vertex through which a relation is fetched is added, or only changes its
direction. -/
theorem grows_fetchVertex
    (graph : JoinGraph)
    (parent : VertexId)
    (field : Field)
    (target : String)
    (direction : JoinDirection)
    (collection : CollectionFetch) :
    graph.Grows (graph.fetchVertex parent field target direction collection).2 := by
  unfold JoinGraph.fetchVertex
  simp only
  split
  · next existing _ =>
      have retouched : graph.Retouched (graph.modify existing fun vertex =>
          { vertex with direction := vertex.direction.merge direction }) :=
        JoinGraph.retouched_modify graph existing fun _ => rfl
      exact retouched.grows
  · exact JoinGraph.grows_attach graph parent _

/-- A fetch that is merged marks the vertex through which its relation is fetched, and what is
fetched below it is merged below that vertex. -/
theorem mergeFetch_eq_ok
    {schema : Schema}
    {parent : VertexId}
    {id : NodeId}
    {name : String}
    {direction : JoinDirection}
    {collection : CollectionFetch}
    {nested : List FetchTree}
    {before after : GraphState} :
    mergeFetch schema parent (.mk id name direction collection nested) before = .ok () after ↔
      ∃ field target vertex graph,
        schema.requireField (typeOf before.graph parent) name = .ok field ∧
        field.target? = some target ∧
        before.graph.fetchVertex parent field target direction collection = (vertex, graph) ∧
        mergeFetches schema vertex nested
          { graph := graph.setFetched vertex, declared := before.declared.insert id vertex } =
            .ok () after := by
  rw [mergeFetch]
  simp only [Operation.bind_eq_ok, require_eq_ok]
  constructor
  · rintro ⟨parentType, current, got, field, _, ⟨required, rfl⟩, last⟩
    cases got
    cases leads : field.target? with
    | none =>
        rw [leads] at last
        cases last
    | some target =>
        rw [leads] at last
        obtain ⟨state, same, read, last⟩ := Operation.bind_eq_ok.mp last
        cases read
        cases fetched : before.graph.fetchVertex parent field target direction collection with
        | mk vertex graph =>
            rw [fetched] at last
            obtain ⟨⟨⟩, stored, put, last⟩ := Operation.bind_eq_ok.mp last
            cases put
            obtain ⟨⟨⟩, listed, declared, last⟩ := Operation.bind_eq_ok.mp last
            cases declared
            exact ⟨field, target, vertex, graph, required, leads, fetched, last⟩
  · rintro ⟨field, target, vertex, graph, required, leads, fetched, last⟩
    refine ⟨_, before, rfl, field, before, ⟨required, rfl⟩, ?_⟩
    rw [leads]
    refine Operation.bind_eq_ok.mpr ⟨before, before, rfl, ?_⟩
    rw [fetched]
    exact Operation.bind_eq_ok.mpr ⟨(), _, rfl, Operation.bind_eq_ok.mpr ⟨(), _, rfl, last⟩⟩

mutual

theorem grows_mergeFetch
    {schema : Schema}
    {parent : VertexId}
    {before after : GraphState} :
    (fetch : FetchTree) -> mergeFetch schema parent fetch before = .ok () after ->
      before.graph.Grows after.graph
  | .mk id name direction collection nested, done => by
      obtain ⟨field, target, vertex, graph, -, -, fetched, rest⟩ := mergeFetch_eq_ok.mp done
      have merged := grows_fetchVertex before.graph parent field target direction collection
      rw [fetched] at merged
      have marked := (JoinGraph.retouched_setFetched graph vertex).grows
      exact (merged.trans marked).trans (grows_mergeFetches nested rest)

theorem grows_mergeFetches
    {schema : Schema}
    {parent : VertexId}
    {before after : GraphState} :
    (fetches : List FetchTree) -> mergeFetches schema parent fetches before = .ok () after ->
      before.graph.Grows after.graph
  | [], done => by
      cases done
      exact .refl _
  | fetch :: fetches, done => by
      obtain ⟨⟨⟩, between, first, rest⟩ := Operation.bind_eq_ok.mp done
      exact (grows_mergeFetch fetch first).trans (grows_mergeFetches fetches rest)

end

theorem grows_mergeAllFetches
    {schema : Schema}
    {tree : Tree}
    {sources : DeclarationMap}
    {before after : GraphState}
    (done : mergeAllFetches schema tree sources before = .ok () after) :
    before.graph.Grows after.graph := by
  unfold mergeAllFetches at done
  generalize sources.entries = entries at done
  induction entries generalizing before with
  | nil =>
      cases done
      exact .refl _
  | cons entry entries inductionHypothesis =>
      obtain ⟨between, first, rest⟩ := Operation.forM_cons_eq_ok.mp done
      obtain ⟨fetches, current, required, merged⟩ := Operation.bind_eq_ok.mp first
      obtain ⟨-, rfl⟩ := require_eq_ok.mp required
      exact (grows_mergeFetches fetches merged).trans (inductionHypothesis rest)

end Graphing
end QueryGraph
