import QueryGraph.Proofs.Graph.Fetching
import QueryGraph.Proofs.Schema.Lookup

/-!
# Typed join graphs

In a typed graph every vertex has a record type of the schema, and every edge leads to the type
that its relation leads to. When the schema is closed, whatever adds to a typed graph leaves a
typed one, and reports an unknown record type only for a root.
-/

namespace QueryGraph

open Operation

/-- A request is refused for a condition or for an alias only. -/
theorem Vertex.blames_of_mergeFault?
    {vertex : Vertex}
    {request : JoinRequest}
    {error : CompileError}
    {names : String -> Prop}
    (refused : vertex.mergeFault? request = some error) :
    error.Blames names := by
  unfold mergeFault? at refused
  split at refused
  · cases refused
    rintro _ ⟨⟩
  · split at refused
    · split at refused
      · cases refused
      · cases refused
        rintro _ ⟨⟩
    · cases refused

namespace JoinGraph

/-- Every vertex has a record type of the schema. -/
def Populated (graph : JoinGraph) (schema : Schema) : Prop :=
  ∀ id vertex, graph.vertex? id = some vertex -> schema.Declares vertex.recordType

/-- Every vertex has a record type of the schema, and the one that its relation leads to. -/
structure Typed
    (graph : JoinGraph)
    (schema : Schema) : Prop where
  coherent : graph.Coherent schema
  populated : graph.Populated schema

variable {schema : Schema} {graph after : JoinGraph} {parent id : VertexId}

theorem typed_empty (schema : Schema) : (JoinGraph.mk #[]).Typed schema where
  coherent _ _ found := by simp [vertex?] at found
  populated _ _ found := by simp [vertex?] at found

theorem Retouched.typed
    (retouched : graph.Retouched after)
    (typed : graph.Typed schema) :
    after.Typed schema where
  coherent := retouched.coherent typed.coherent
  populated id vertex found := by
    obtain ⟨earlier, earlierFound, -⟩ := retouched.symm.vertex?_eq_some found
    obtain ⟨later, laterFound, sameType, -⟩ := retouched.grows id earlier earlierFound
    rw [found] at laterFound
    cases laterFound
    rw [sameType]
    exact typed.populated id earlier earlierFound

/-- A vertex of a typed graph has a record type of the schema. -/
theorem Typed.declares_typeOf
    (typed : graph.Typed schema)
    (present : id.index < graph.size) :
    schema.Declares (Graphing.typeOf graph id) := by
  obtain ⟨vertex, found⟩ := vertex?_of_lt present
  unfold Graphing.typeOf
  rw [found]
  exact typed.populated id vertex found

theorem typed_addRoot
    {root : Vertex}
    (typed : graph.Typed schema)
    (childless : root.children = [])
    (declares : schema.Declares root.recordType) :
    (graph.addRoot root).2.Typed schema where
  coherent := coherent_addRoot typed.coherent childless
  populated id vertex found := by
    rw [vertex?_addRoot] at found
    split at found
    · cases found
      exact declares
    · exact typed.populated id vertex found

theorem typed_attach
    {vertex : Vertex}
    {field : String}
    (closed : schema.Closed)
    (typed : graph.Typed schema)
    (older : parent.index < graph.size)
    (childless : vertex.children = [])
    (statement : vertex.statement = ((graph.vertex? parent).map Vertex.statement).getD ⟨0⟩)
    (isField : vertex.field = some field)
    (target : schema.relationTarget (Graphing.typeOf graph parent) field = .ok vertex.recordType) :
    (graph.attach parent vertex).2.Typed schema := by
  obtain ⟨above, found⟩ := vertex?_of_lt older
  unfold Graphing.typeOf at target
  rw [found] at statement target
  refine ⟨coherent_attach typed.coherent found childless statement isField target, ?_⟩
  intro id other present
  rw [vertex?_attach _ _ _ _ older] at present
  split at present
  · cases present
    exact closed _ _ _ target
  · split at present
    · obtain ⟨earlier, earlierFound, rfl⟩ := Option.map_eq_some_iff.mp present
      exact typed.populated id earlier earlierFound
    · exact typed.populated id other present

theorem typed_create
    {request : JoinRequest}
    (closed : schema.Closed)
    (typed : graph.Typed schema)
    (older : parent.index < graph.size)
    (target : schema.relationTarget (Graphing.typeOf graph parent) request.field =
      .ok request.targetType) :
    (graph.create parent request).2.Typed schema := by
  unfold create
  simp only
  have attached : (graph.attach parent (Vertex.ofRequest request
      (((graph.vertex? parent).map Vertex.statement).getD ⟨0⟩))).2.Typed schema :=
    typed_attach closed typed older rfl rfl rfl target
  split
  · exact (retouched_setUsed _ _).typed attached
  · exact attached

theorem blames_of_resolve
    {request : JoinRequest}
    {error : CompileError}
    {names : String -> Prop}
    (refused : resolve parent request graph = .error error after) :
    error.Blames names := by
  unfold resolve at refused
  rw [bind_of_ok (get_apply graph)] at refused
  cases candidate : graph.candidate? parent request with
  | none =>
      rw [candidate] at refused
      cases refused
  | some existing =>
      cases fault : (graph.vertex? existing).bind fun vertex => vertex.mergeFault? request with
      | none =>
          simp only [candidate, fault] at refused
          cases refused
      | some reason =>
          simp only [candidate, fault] at refused
          cases refused
          obtain ⟨vertex, -, faulty⟩ := Option.bind_eq_some_iff.mp fault
          exact Vertex.blames_of_mergeFault? faulty

/-- A granted request leads to a vertex of a typed graph. -/
theorem ends_resolve
    {request : JoinRequest}
    {names : String -> Prop}
    (closed : schema.Closed)
    (typed : graph.Typed schema)
    (older : parent.index < graph.size)
    (target : schema.relationTarget (Graphing.typeOf graph parent) request.field =
      .ok request.targetType) :
    Ends (fun resolution after => after.Typed schema ∧ graph.size ≤ after.size ∧
        resolution.id.index < after.size)
      (fun error => error.Blames names) (resolve parent request graph) := by
  cases outcome : resolve parent request graph with
  | error error after => exact blames_of_resolve outcome
  | ok resolution after =>
      obtain ⟨above, found⟩ := vertex?_of_lt older
      have leads := target
      unfold Graphing.typeOf at leads
      rw [found] at leads
      obtain ⟨grows, -, below, belowFound, -⟩ := resolve_spec found typed.coherent leads outcome
      refine ⟨?_, ?_, lt_size_of_vertex? belowFound⟩
      · rcases resolve_eq_ok.mp outcome with ⟨-, -, rfl⟩ | ⟨existing, -, -, -, rfl⟩
        · exact typed_create closed typed older target
        · exact (retouched_merge graph existing request).typed typed
      · exact grows.size_le

/-- A fetch leads to a vertex of a typed graph. -/
theorem typed_fetchVertex
    {vertex : VertexId}
    {field : Field}
    {name target : String}
    {direction : JoinDirection}
    {collection : CollectionFetch}
    (closed : schema.Closed)
    (typed : graph.Typed schema)
    (older : parent.index < graph.size)
    (required : schema.requireField (Graphing.typeOf graph parent) name = .ok field)
    (leads : field.target? = some target)
    (fetched : graph.fetchVertex parent field target direction collection = (vertex, after)) :
    after.Typed schema := by
  unfold fetchVertex at fetched
  simp only at fetched
  split at fetched
  · cases fetched
    refine (retouched_modify graph _ ?_).typed typed
    exact fun _ => rfl
  · cases fetched
    have named := Schema.name_of_requireField required
    refine typed_attach closed typed older rfl rfl rfl ?_
    rw [named]
    exact Schema.relationTarget_eq_ok.mpr ⟨field, Schema.requireField_eq_ok.mp required, leads⟩

end JoinGraph

/-- The graph is typed, and has the vertices of what is declared. -/
structure GraphState.Typed
    (state : GraphState)
    (schema : Schema) : Prop where
  graph : state.graph.Typed schema
  present : ∀ {declaration id}, state.declared.find? declaration = some id ->
    id.index < state.graph.size

namespace GraphState.Typed

variable {schema : Schema} {state : GraphState} {graph : JoinGraph} {declaration : NodeId}
  {vertex : VertexId}

theorem declare
    (typed : state.Typed schema)
    (graphTyped : graph.Typed schema)
    (larger : state.graph.size ≤ graph.size)
    (present : vertex.index < graph.size) :
    GraphState.Typed
      { graph := graph, declared := state.declared.insert declaration vertex } schema where
  graph := graphTyped
  present found := by
    rcases DeclarationMap.inserted_or_found found with ⟨-, rfl⟩ | old
    · exact present
    · exact Nat.lt_of_lt_of_le (typed.present old) larger

end GraphState.Typed

namespace Graphing

variable {schema : Schema} {before : GraphState} {parent : VertexId} {names : String -> Prop}

theorem ends_require
    {result : Except CompileError α}
    {fact : α -> GraphState -> Prop}
    {fault : CompileError -> Prop}
    (facts : ∀ value, result = .ok value -> fact value before)
    (faults : ∀ error, result = .error error -> fault error) :
    Ends fact fault (require result before) := by
  cases result with
  | ok value => exact facts value rfl
  | error error => exact faults error rfl

theorem ends_onGraph
    {action : EStateM CompileError JoinGraph α}
    {fact : α -> GraphState -> Prop}
    {fault : CompileError -> Prop}
    (ends : Ends (fun value graph => fact value { before with graph := graph }) fault
      (action before.graph)) :
    Ends fact fault (onGraph action before) := by
  unfold onGraph
  cases done : action before.graph with
  | ok value graph =>
      rw [done] at ends
      exact ends
  | error error graph =>
      rw [done] at ends
      exact ends

/-- Joins that are built leave a typed graph. -/
theorem ends_buildJoins
    {joins : List SourceTree}
    (closed : schema.Closed)
    (typed : before.Typed schema)
    (older : parent.index < before.graph.size) :
    Ends (fun _ after => after.Typed schema ∧ before.graph.size ≤ after.graph.size)
      (fun error => error.Blames names) (buildJoins schema parent joins before) := by
  induction parent, joins using buildJoins.induct generalizing before with
  | case1 parent =>
      rw [buildJoins]
      exact ⟨typed, Nat.le_refl _⟩
  | case2 parent node source fetches joins rest above field direction mode on isJoin
      joinsHypothesis restHypothesis =>
      rw [buildJoins]
      simp only [isJoin]
      refine Ends.bind_ok (recordType_apply parent before) ?_
      refine Ends.bind (ends_require (fun target leads => ?_) fun error refused =>
        Schema.blames_relationTarget (typed.graph.declares_typeOf older) refused)
      refine Ends.bind (ends_onGraph ((JoinGraph.ends_resolve closed typed.graph older leads).imp ?_
        fun _ same => same))
      rintro resolution graph ⟨graphTyped, larger, present⟩
      refine Ends.bind_ok rfl (Ends.bind ((joinsHypothesis resolution
        (typed.declare graphTyped larger present) present).imp ?_ fun _ same => same))
      rintro _ below ⟨belowTyped, belowLarger⟩
      have grown := Nat.le_trans larger belowLarger
      exact (restHypothesis belowTyped (Nat.lt_of_lt_of_le older grown)).imp
        (fun _ after done => ⟨done.1, Nat.le_trans grown done.2⟩) fun _ same => same
  | case3 parent node source fetches joins rest notJoin =>
      rw [buildJoins]
      cases kind : source.kind with
      | join above field direction mode on =>
          exact absurd kind (notJoin above field direction mode on)
      | root recordType =>
          rintro _ ⟨⟩
      | correlated outer =>
          rintro _ ⟨⟩

/-- A root that is built leaves a typed graph. It is refused when its record type is unknown. -/
theorem ends_buildRoot
    {id : NodeId}
    {body : Source}
    {fetches : List FetchTree}
    {joins : List SourceTree}
    (closed : schema.Closed)
    (typed : before.Typed schema)
    (named : ∀ {recordType}, body.kind = .root recordType -> names recordType) :
    Ends (fun _ after => after.Typed schema) (fun error => error.Blames names)
      (buildRoot schema (.mk id body fetches joins) before) := by
  rw [buildRoot]
  cases kind : body.kind with
  | join above field direction mode on =>
      rintro _ ⟨⟩
  | correlated outer =>
      rintro _ ⟨⟩
  | root recordType =>
      refine Ends.bind (ends_require (fun declared found => ?_) fun error refused =>
        Schema.blames_requireRecordType refused (named kind))
      have declares : schema.Declares recordType :=
        ⟨declared, Schema.requireRecordType_eq_ok.mp found⟩
      have rooted : (before.graph.addRoot
          (Vertex.root recordType body.aliasHint body.statement)).2.Typed schema :=
        JoinGraph.typed_addRoot typed.graph rfl declares
      have larger : (before.graph.addRoot
          (Vertex.root recordType body.aliasHint body.statement)).2.size = before.graph.size + 1 := by
        simp [JoinGraph.addRoot, JoinGraph.size]
      have present : (VertexId.mk before.graph.size).index < (before.graph.addRoot
          (Vertex.root recordType body.aliasHint body.statement)).2.size := by
        rw [larger]
        exact Nat.lt_succ_self _
      refine Ends.bind_ok rfl (Ends.bind_ok rfl (Ends.bind_ok rfl (Ends.bind
        ((ends_buildJoins closed (typed.declare rooted (by omega) present) present).imp ?_
          fun _ same => same))))
      exact fun _ after done => done.1

mutual

/-- A fetch that is merged leaves a typed graph. -/
theorem ends_mergeFetch
    {before : GraphState}
    {parent : VertexId}
    (closed : schema.Closed)
    (typed : before.Typed schema)
    (older : parent.index < before.graph.size) :
    (fetch : FetchTree) ->
    Ends (fun _ after => after.Typed schema ∧ before.graph.size ≤ after.graph.size)
      (fun error => error.Blames names) (mergeFetch schema parent fetch before)
  | .mk id name direction collection nested => by
      rw [mergeFetch]
      refine Ends.bind_ok (recordType_apply parent before) ?_
      refine Ends.bind (ends_require (fun field required => ?_) fun error refused =>
        Schema.blames_requireField (typed.graph.declares_typeOf older) refused)
      cases leads : field.target? with
      | none =>
          rintro _ ⟨⟩
      | some target =>
          cases fetched : before.graph.fetchVertex parent field target direction collection with
          | mk vertex graph =>
              have grows := grows_fetchVertex before.graph parent field target direction collection
              rw [fetched] at grows
              have retouched := JoinGraph.retouched_setFetched graph vertex
              have larger := (grows.trans retouched.grows).size_le
              have present := retouched.grows.lt_size (JoinGraph.lt_size_of_fetchVertex fetched)
              have graphTyped := retouched.typed
                (JoinGraph.typed_fetchVertex closed typed.graph older required leads fetched)
              refine Ends.bind_ok rfl ?_
              simp only [fetched]
              refine Ends.bind_ok rfl (Ends.bind_ok rfl
                ((ends_mergeFetches closed (typed.declare graphTyped larger present) present
                  nested).imp ?_ fun _ same => same))
              exact fun _ after done => ⟨done.1, Nat.le_trans larger done.2⟩

theorem ends_mergeFetches
    {before : GraphState}
    {parent : VertexId}
    (closed : schema.Closed)
    (typed : before.Typed schema)
    (older : parent.index < before.graph.size) :
    (fetches : List FetchTree) ->
    Ends (fun _ after => after.Typed schema ∧ before.graph.size ≤ after.graph.size)
      (fun error => error.Blames names) (mergeFetches schema parent fetches before)
  | [] => by
      rw [mergeFetches]
      exact ⟨typed, Nat.le_refl _⟩
  | fetch :: fetches => by
      rw [mergeFetches]
      refine Ends.bind ((ends_mergeFetch closed typed older fetch).imp ?_ fun _ same => same)
      rintro _ between ⟨betweenTyped, larger⟩
      exact (ends_mergeFetches closed betweenTyped (Nat.lt_of_lt_of_le older larger) fetches).imp
        (fun _ after done => ⟨done.1, Nat.le_trans larger done.2⟩) fun _ same => same

end

/-- All fetches that are merged leave a typed graph. -/
theorem ends_mergeAllFetches
    {tree : Tree}
    {sources : DeclarationMap}
    (closed : schema.Closed)
    (typed : before.Typed schema)
    (present : ∀ entry ∈ sources.entries, entry.2.index < before.graph.size) :
    Ends (fun _ after => after.Typed schema) (fun error => error.Blames names)
      (mergeAllFetches schema tree sources before) := by
  unfold mergeAllFetches
  refine (Ends.forM (fun state => state.Typed schema ∧ before.graph.size ≤ state.graph.size) ?_
    ⟨typed, Nat.le_refl _⟩).imp (fun _ after done => done.1) fun _ same => same
  rintro ⟨source, vertex⟩ member state ⟨stateTyped, larger⟩
  refine Ends.bind (ends_require (fun fetches _ => ?_) ?_)
  · have older := Nat.lt_of_lt_of_le (present _ member) larger
    exact (ends_mergeFetches closed stateTyped older fetches).imp
      (fun _ after done => ⟨done.1, Nat.le_trans larger done.2⟩) fun _ same => same
  · intro error refused
    cases read : tree.fetchTrees source with
    | ok fetches =>
        rw [read] at refused
        cases refused
    | error fault =>
        rw [read] at refused
        cases refused
        rintro _ ⟨⟩

end Graphing
end QueryGraph
