import QueryGraph.Proofs.Graph.Labels

/-!
# Graphs that differ in what is used

Two graphs may have the same vertices and differ only in which of them anything refers to. What
is asked of one of them is then answered alike by the other, and they stay so related, because
no request looks at that mark.
-/

namespace QueryGraph

open Operation

/-- A vertex without what tells whether it is part of a result. -/
def Vertex.unmarked (vertex : Vertex) : Vertex :=
  { vertex with used := false, identifier := none, aliasName := none }

/-- A vertex that differs from another one in that it may be unused. -/
structure Vertex.Prunes (pruned full : Vertex) : Prop where
  same : pruned.unmarked = full.unmarked
  used : pruned.used = true -> full.used = true

/-- A graph with the same vertices as another one, of which fewer may be used. -/
def JoinGraph.Prunes (pruned full : JoinGraph) : Prop :=
  ∀ id, Option.Rel Vertex.Prunes (pruned.vertex? id) (full.vertex? id)

namespace Vertex.Prunes

variable {pruned full : Vertex}

theorem refl (vertex : Vertex) : vertex.Prunes vertex := ⟨rfl, id⟩

/-- Whatever ignores the marks is the same of both vertices. -/
theorem part_eq
    {α : Type}
    {part : Vertex -> α}
    (prunes : pruned.Prunes full)
    (ignores : ∀ vertex : Vertex, part vertex.unmarked = part vertex) :
    part pruned = part full := by
  rw [← ignores pruned, prunes.same, ignores full]

/-- A change that neither looks at the marks nor sets them. -/
theorem change
    {change : Vertex -> Vertex}
    (prunes : pruned.Prunes full)
    (ignores : ∀ vertex : Vertex, (change vertex.unmarked).unmarked = (change vertex).unmarked)
    (keeps : ∀ vertex : Vertex, (change vertex).used = vertex.used) :
    (change pruned).Prunes (change full) := by
  refine ⟨?_, ?_⟩
  · rw [← ignores pruned, prunes.same, ignores full]
  · rw [keeps, keeps]
    exact prunes.used

/-- A change that sets the mark of both vertices. -/
theorem use
    {change : Vertex -> Vertex}
    (prunes : pruned.Prunes full)
    (ignores : ∀ vertex : Vertex, (change vertex.unmarked).unmarked = (change vertex).unmarked)
    (sets : ∀ vertex : Vertex, (change vertex).used = true) :
    (change pruned).Prunes (change full) := by
  refine ⟨?_, fun _ => sets full⟩
  rw [← ignores pruned, prunes.same, ignores full]

end Vertex.Prunes

namespace JoinGraph

variable {pruned full : JoinGraph} {id parent : VertexId}

namespace Prunes

theorem refl (graph : JoinGraph) : graph.Prunes graph := by
  intro id
  cases graph.vertex? id with
  | none => exact .none
  | some vertex => exact .some (.refl vertex)

theorem cases
    (prunes : pruned.Prunes full)
    (id : VertexId) :
    (pruned.vertex? id = none ∧ full.vertex? id = none) ∨
      ∃ vertex other, pruned.vertex? id = some vertex ∧ full.vertex? id = some other ∧
        vertex.Prunes other := by
  have related := prunes id
  revert related
  generalize pruned.vertex? id = found
  generalize full.vertex? id = otherFound
  rintro (same | _)
  · exact Or.inr ⟨_, _, rfl, rfl, same⟩
  · exact Or.inl ⟨rfl, rfl⟩

theorem map_eq
    {α : Type}
    {part : Vertex -> α}
    (prunes : pruned.Prunes full)
    (id : VertexId)
    (ignores : ∀ vertex : Vertex, part vertex.unmarked = part vertex) :
    (pruned.vertex? id).map part = (full.vertex? id).map part := by
  rcases prunes.cases id with ⟨absent, alsoAbsent⟩ | ⟨vertex, other, found, otherFound, same⟩
  · rw [absent, alsoAbsent]
  · rw [found, otherFound, Option.map_some, Option.map_some, same.part_eq ignores]

theorem any_eq
    {test : Vertex -> Bool}
    (prunes : pruned.Prunes full)
    (id : VertexId)
    (ignores : ∀ vertex : Vertex, test vertex.unmarked = test vertex) :
    (pruned.vertex? id).any test = (full.vertex? id).any test := by
  rcases prunes.cases id with ⟨absent, alsoAbsent⟩ | ⟨vertex, other, found, otherFound, same⟩
  · rw [absent, alsoAbsent]
  · rw [found, otherFound, Option.any_some, Option.any_some, same.part_eq ignores]

theorem size_eq (prunes : pruned.Prunes full) : pruned.size = full.size := by
  have bounded : ∀ size, pruned.size ≤ size ↔ full.size ≤ size := by
    intro size
    have lookup : pruned.vertex? ⟨size⟩ = none ↔ full.vertex? ⟨size⟩ = none := by
      rcases prunes.cases ⟨size⟩ with ⟨absent, alsoAbsent⟩ | ⟨vertex, other, found, otherFound, -⟩
      · simp only [absent, alsoAbsent]
      · simp only [found, otherFound, reduceCtorEq]
    exact Array.getElem?_eq_none_iff.symm.trans (lookup.trans Array.getElem?_eq_none_iff)
  exact Nat.le_antisymm ((bounded _).mpr (Nat.le_refl _)) ((bounded _).mp (Nat.le_refl _))

theorem children_eq
    (prunes : pruned.Prunes full)
    (id : VertexId) :
    pruned.children id = full.children id := by
  unfold children
  rw [prunes.map_eq id fun _ => rfl]

theorem typeOf_eq
    (prunes : pruned.Prunes full)
    (id : VertexId) :
    Graphing.typeOf pruned id = Graphing.typeOf full id := by
  unfold Graphing.typeOf
  rw [prunes.map_eq id fun _ => rfl]

theorem statement_eq
    (prunes : pruned.Prunes full)
    (id : VertexId) :
    (pruned.vertex? id).map Vertex.statement = (full.vertex? id).map Vertex.statement :=
  prunes.map_eq id fun _ => rfl

theorem climb_eq
    (prunes : pruned.Prunes full)
    (fuel : Nat)
    (id : VertexId) :
    pruned.climb fuel id = full.climb fuel id := by
  induction fuel generalizing id with
  | zero => rfl
  | succ fuel inductionHypothesis =>
      unfold climb
      rcases prunes.cases id with ⟨absent, alsoAbsent⟩ | ⟨vertex, other, found, otherFound, same⟩
      · rw [absent, alsoAbsent]
      · have sameParent : vertex.parent = other.parent := same.part_eq fun _ => rfl
        simp only [found, otherFound, sameParent, inductionHypothesis]

theorem ancestry_eq
    (prunes : pruned.Prunes full)
    (id : VertexId) :
    pruned.ancestry id = full.ancestry id := by
  unfold ancestry
  rw [prunes.size_eq, prunes.climb_eq]

/-! ## Changing both graphs -/

theorem modify
    {change : Vertex -> Vertex}
    (prunes : pruned.Prunes full)
    (id : VertexId)
    (changes : ∀ {vertex other : Vertex}, vertex.Prunes other ->
      (change vertex).Prunes (change other)) :
    (pruned.modify id change).Prunes (full.modify id change) := by
  intro other
  rw [vertex?_modify, vertex?_modify]
  split
  · rcases prunes.cases other with ⟨absent, alsoAbsent⟩ | ⟨vertex, match?, found, matchFound, same⟩
    · rw [absent, alsoAbsent]
      exact .none
    · rw [found, matchFound]
      exact .some (changes same)
  · exact prunes other

/-- A change that neither looks at the marks nor sets them. -/
theorem touch
    {change : Vertex -> Vertex}
    (prunes : pruned.Prunes full)
    (id : VertexId)
    (ignores : ∀ vertex : Vertex, (change vertex.unmarked).unmarked = (change vertex).unmarked)
    (keeps : ∀ vertex : Vertex, (change vertex).used = vertex.used) :
    (pruned.modify id change).Prunes (full.modify id change) :=
  prunes.modify id fun same => same.change ignores keeps

/-- A change that sets the mark of every vertex that it reaches. -/
theorem useAll
    {change : Vertex -> Vertex}
    (prunes : pruned.Prunes full)
    (ids : List VertexId)
    (ignores : ∀ vertex : Vertex, (change vertex.unmarked).unmarked = (change vertex).unmarked)
    (sets : ∀ vertex : Vertex, (change vertex).used = true) :
    (pruned.modifyAll ids change).Prunes (full.modifyAll ids change) := by
  unfold JoinGraph.modifyAll
  induction ids generalizing pruned full with
  | nil => exact prunes
  | cons id ids inductionHypothesis =>
      exact inductionHypothesis (prunes.modify id fun same => same.use ignores sets)

theorem setUsed
    (prunes : pruned.Prunes full)
    (id : VertexId) :
    (pruned.setUsed id).Prunes (full.setUsed id) := by
  unfold JoinGraph.setUsed
  rw [prunes.ancestry_eq id]
  refine prunes.useAll _ ?_ ?_ <;> exact fun _ => rfl

/-- More may be used in the graph in which more is used already. -/
theorem setUsed_full
    (prunes : pruned.Prunes full)
    (id : VertexId) :
    pruned.Prunes (full.setUsed id) := by
  intro other
  rw [vertex?_setUsed]
  split
  · rcases prunes.cases other with ⟨absent, alsoAbsent⟩ | ⟨vertex, match?, found, matchFound, same⟩
    · rw [absent, alsoAbsent]
      exact .none
    · rw [found, matchFound]
      exact .some ⟨same.same, fun _ => rfl⟩
  · exact prunes other

theorem setFetched
    (prunes : pruned.Prunes full)
    (id : VertexId) :
    (pruned.setFetched id).Prunes (full.setFetched id) := by
  unfold JoinGraph.setFetched
  simp only
  rw [prunes.ancestry_eq id]
  refine Prunes.useAll (prunes.touch id ?_ ?_) _ ?_ ?_ <;> exact fun _ => rfl

theorem push
    (prunes : pruned.Prunes full)
    (vertex : Vertex) :
    (JoinGraph.mk (pruned.vertices.push vertex)).Prunes ⟨full.vertices.push vertex⟩ := by
  have lookup : ∀ (graph : JoinGraph) (id : VertexId),
      (JoinGraph.mk (graph.vertices.push vertex)).vertex? id =
        if id.index = graph.size then some vertex else graph.vertex? id :=
    fun graph => vertex?_addRoot graph vertex
  intro id
  rw [lookup, lookup, prunes.size_eq]
  split
  · exact .some (.refl vertex)
  · exact prunes id

theorem attach
    (prunes : pruned.Prunes full)
    (parent : VertexId)
    (vertex : Vertex) :
    (pruned.attach parent vertex).1 = (full.attach parent vertex).1 ∧
      (pruned.attach parent vertex).2.Prunes (full.attach parent vertex).2 := by
  unfold JoinGraph.attach
  simp only [prunes.size_eq, true_and]
  refine (prunes.push _).touch parent ?_ ?_ <;> exact fun _ => rfl

/-! ## Requests -/

theorem candidate?_eq
    (prunes : pruned.Prunes full)
    (parent : VertexId)
    (request : JoinRequest) :
    pruned.candidate? parent request = full.candidate? parent request := by
  unfold candidate? findMergeable
  rw [prunes.children_eq]
  congr 2
  funext child
  exact prunes.any_eq child fun _ => rfl

theorem mergeFault?_eq
    (prunes : pruned.Prunes full)
    (existing : VertexId)
    (request : JoinRequest) :
    ((pruned.vertex? existing).bind fun vertex => vertex.mergeFault? request) =
      (full.vertex? existing).bind fun vertex => vertex.mergeFault? request := by
  rcases prunes.cases existing with ⟨absent, alsoAbsent⟩ | ⟨vertex, other, found, otherFound, same⟩
  · rw [absent, alsoAbsent]
  · have sameOn : vertex.on = other.on := same.part_eq fun _ => rfl
    have sameHint : vertex.aliasHint = other.aliasHint := same.part_eq fun _ => rfl
    simp only [found, otherFound, Option.bind_some, Vertex.mergeFault?, sameOn, sameHint]

theorem create
    (prunes : pruned.Prunes full)
    (parent : VertexId)
    (request : JoinRequest) :
    (pruned.create parent request).1 = (full.create parent request).1 ∧
      (pruned.create parent request).2.Prunes (full.create parent request).2 := by
  unfold JoinGraph.create
  simp only
  rw [prunes.statement_eq]
  obtain ⟨sameId, attached⟩ := prunes.attach parent
    (Vertex.ofRequest request (((full.vertex? parent).map Vertex.statement).getD ⟨0⟩))
  refine ⟨sameId, ?_⟩
  split
  · rw [sameId]
    exact attached.setUsed _
  · exact attached

theorem merge
    (prunes : pruned.Prunes full)
    (existing : VertexId)
    (request : JoinRequest) :
    (pruned.merge existing request).Prunes (full.merge existing request) := by
  have merged : (pruned.modify existing fun vertex => vertex.mergeRequest request).Prunes
      (full.modify existing fun vertex => vertex.mergeRequest request) := by
    refine prunes.touch existing ?_ ?_ <;> exact fun _ => rfl
  unfold JoinGraph.merge
  simp only
  split
  · exact merged.setUsed existing
  · exact merged

/-- Requests are granted alike. -/
theorem alike_resolve
    (prunes : pruned.Prunes full)
    (parent : VertexId)
    (request : JoinRequest) :
    Alike Eq Prunes (resolve parent request pruned) (resolve parent request full) := by
  unfold resolve
  rw [bind_of_ok (get_apply pruned), bind_of_ok (get_apply full), prunes.candidate?_eq]
  cases full.candidate? parent request with
  | none =>
      obtain ⟨sameId, created⟩ := prunes.create parent request
      exact ⟨congrArg Resolution.created sameId, created⟩
  | some existing =>
      simp only [prunes.mergeFault?_eq]
      cases (full.vertex? existing).bind fun vertex => vertex.mergeFault? request with
      | none => exact ⟨rfl, prunes.merge existing request⟩
      | some error => rfl

theorem fetchVertex
    (prunes : pruned.Prunes full)
    (parent : VertexId)
    (field : Field)
    (target : String)
    (direction : JoinDirection)
    (collection : CollectionFetch) :
    (pruned.fetchVertex parent field target direction collection).1 =
        (full.fetchVertex parent field target direction collection).1 ∧
      (pruned.fetchVertex parent field target direction collection).2.Prunes
        (full.fetchVertex parent field target direction collection).2 := by
  have reusable : (fun child => (pruned.vertex? child).any fun vertex =>
      vertex.isFetchable field collection) =
        fun child =>
          (full.vertex? child).any fun vertex => vertex.isFetchable field collection := by
    funext child
    exact prunes.any_eq child fun _ => rfl
  unfold JoinGraph.fetchVertex
  simp only
  rw [prunes.children_eq, reusable, prunes.statement_eq]
  split
  · refine ⟨rfl, prunes.touch _ ?_ ?_⟩ <;> exact fun _ => rfl
  · exact prunes.attach parent _

end Prunes

/-- The vertices are the same but for the marks, and what is used in the pruned graph is used in
the full one. -/
theorem prunes_iff :
    pruned.Prunes full ↔
      (∀ id, (pruned.vertex? id).map Vertex.unmarked = (full.vertex? id).map Vertex.unmarked) ∧
        ∀ id, pruned.isUsed id = true -> full.isUsed id = true := by
  unfold isUsed
  constructor
  · intro prunes
    refine ⟨fun id => prunes.map_eq id fun _ => rfl, fun id isUsed => ?_⟩
    rcases prunes.cases id with ⟨absent, -⟩ | ⟨vertex, other, found, otherFound, same⟩
    · simp [absent] at isUsed
    · rw [found] at isUsed
      rw [otherFound]
      exact same.used isUsed
  · rintro ⟨same, used⟩ id
    have sameHere := same id
    have usedHere := used id
    cases found : pruned.vertex? id with
    | none =>
        rw [found, Option.map_none, eq_comm, Option.map_eq_none_iff] at sameHere
        rw [sameHere]
        exact .none
    | some vertex =>
        rw [found, Option.map_some, eq_comm, Option.map_eq_some_iff] at sameHere
        obtain ⟨other, otherFound, unmarked⟩ := sameHere
        rw [found, otherFound] at usedHere
        rw [otherFound]
        exact .some ⟨unmarked.symm, usedHere⟩

/-- Labels are marks. -/
theorem Prunes.assignLabels
    {first second : CompilerConfig}
    {roots : List VertexId}
    (prunes : pruned.Prunes full) :
    (pruned.assignLabels first roots).Prunes (full.assignLabels second roots) := by
  have unmarked : ∀ (graph : JoinGraph) (config : CompilerConfig) (id : VertexId),
      ((graph.assignLabels config roots).vertex? id).map Vertex.unmarked =
        (graph.vertex? id).map Vertex.unmarked :=
    fun graph config id => map_vertex?_assignLabels graph config roots id fun _ _ _ => rfl
  obtain ⟨same, used⟩ := prunes_iff.mp prunes
  refine prunes_iff.mpr ⟨fun id => ?_, fun id => ?_⟩
  · rw [unmarked, unmarked, same]
  · rw [isUsed_assignLabels, isUsed_assignLabels]
    exact used id

end JoinGraph

/-! ## Fetches -/

/-- A state with the same declarations as another one, in whose graph fewer vertices may be
used. -/
structure GraphState.Prunes (pruned full : GraphState) : Prop where
  graph : pruned.graph.Prunes full.graph
  declared : pruned.declared = full.declared

theorem GraphState.Prunes.declare
    {pruned full : GraphState}
    {graph other : JoinGraph}
    {declaration : NodeId}
    {vertex : VertexId}
    (prunes : pruned.Prunes full)
    (graphs : graph.Prunes other) :
    GraphState.Prunes
      { graph := graph, declared := pruned.declared.insert declaration vertex }
      { graph := other, declared := full.declared.insert declaration vertex } :=
  ⟨graphs, by rw [prunes.declared]⟩

namespace Graphing

variable {schema : Schema}

theorem alike_require
    {pruned full : GraphState}
    (prunes : pruned.Prunes full)
    (result : Except CompileError α) :
    Alike Eq GraphState.Prunes (require result pruned) (require result full) := by
  cases result with
  | ok value => exact ⟨rfl, prunes⟩
  | error error => rfl

mutual

/-- A fetch is merged alike. -/
theorem alike_mergeFetch
    {pruned full : GraphState}
    {parent : VertexId}
    (prunes : pruned.Prunes full) :
    (fetch : FetchTree) ->
    Alike Eq GraphState.Prunes (mergeFetch schema parent fetch pruned)
      (mergeFetch schema parent fetch full)
  | .mk id name direction collection nested => by
      rw [mergeFetch, bind_of_ok (recordType_apply parent pruned),
        bind_of_ok (recordType_apply parent full), prunes.graph.typeOf_eq]
      refine Alike.bind (alike_require prunes _) ?_
      rintro field _ left right rfl kept
      cases field.target? with
      | none => rfl
      | some target =>
          obtain ⟨sameId, fetched⟩ :=
            kept.graph.fetchVertex parent field target direction collection
          simp only [bind_of_ok (get_apply left), bind_of_ok (get_apply right)]
          rw [← sameId]
          exact alike_mergeFetches (kept.declare (fetched.setFetched _)) nested

theorem alike_mergeFetches
    {pruned full : GraphState}
    {parent : VertexId}
    (prunes : pruned.Prunes full) :
    (fetches : List FetchTree) ->
    Alike Eq GraphState.Prunes (mergeFetches schema parent fetches pruned)
      (mergeFetches schema parent fetches full)
  | [] => by
      rw [mergeFetches]
      exact ⟨rfl, prunes⟩
  | fetch :: fetches => by
      rw [mergeFetches]
      refine Alike.bind (alike_mergeFetch prunes fetch) ?_
      exact fun _ _ _ _ _ kept => alike_mergeFetches kept fetches

end

/-- The fetches of all sources are merged alike. -/
theorem alike_mergeAllFetches
    {pruned full : GraphState}
    {tree : Tree}
    {sources : DeclarationMap}
    (prunes : pruned.Prunes full) :
    Alike Eq GraphState.Prunes (mergeAllFetches schema tree sources pruned)
      (mergeAllFetches schema tree sources full) := by
  refine Alike.forM (fun entry _ left right kept => ?_) prunes
  refine Alike.bind (alike_require kept _) ?_
  rintro fetches _ _ _ rfl stillKept
  exact alike_mergeFetches stillKept fetches

end Graphing
end QueryGraph
