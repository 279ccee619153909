import Mathlib.Data.List.Find
import QueryGraph.Proofs.Graph.Descent
import QueryGraph.Proofs.Graph.Evolution
import QueryGraph.Proofs.Graph.Spares

/-!
# Loading vertices

A fetch loads a vertex below its parent. From then on the graph answers the same fetch with the
same vertex and without a change, until another fetch of the same relation below the same parent
comes in between.
-/

namespace QueryGraph

theorem JoinDirection.merge_merge_self (existing requested : JoinDirection) :
    (existing.merge requested).merge requested = existing.merge requested := by
  cases existing <;> cases requested <;> rfl

/-- A vertex that is also fetched in some direction. -/
def Vertex.forced (direction : JoinDirection) (vertex : Vertex) : Vertex :=
  { vertex with direction := vertex.direction.merge direction }

namespace JoinGraph

variable {before after graph : JoinGraph} {schema : Schema} {parent place id other : VertexId}
  {name : String} {target : String} {direction : JoinDirection} {collection : CollectionFetch}

theorem ext_vertex? (lookup : ∀ id, after.vertex? id = before.vertex? id) : after = before := by
  obtain ⟨vertices⟩ := after
  obtain ⟨others⟩ := before
  congr 1
  exact Array.ext_getElem? fun index => lookup ⟨index⟩

/-! ## The vertex that a fetch may reuse -/

/-- Whether a fetch may reuse a vertex. -/
def fetchable
    (graph : JoinGraph)
    (field : Field)
    (collection : CollectionFetch)
    (id : VertexId) : Bool :=
  (graph.vertex? id).any fun vertex => vertex.isFetchable field collection

/-- The vertex below another one that a fetch reuses. -/
def reusable?
    (graph : JoinGraph)
    (parent : VertexId)
    (field : Field)
    (collection : CollectionFetch) : Option VertexId :=
  (graph.children parent).find? (graph.fetchable field collection)

theorem fetchVertex_of_reusable?
    {field : Field}
    (found : graph.reusable? parent field collection = some id) :
    graph.fetchVertex parent field target direction collection =
      (id, graph.modify id (Vertex.forced direction)) := by
  unfold reusable? at found
  unfold fetchVertex
  simp only
  rw [show (graph.children parent).find? (fun child => (graph.vertex? child).any
    fun vertex => vertex.isFetchable field collection) = some id from found]
  rfl

theorem fetchVertex_of_none
    {field : Field}
    (missing : graph.reusable? parent field collection = none) :
    graph.fetchVertex parent field target direction collection =
      graph.attach parent {
        recordType := target
        field := some field.name
        direction := direction
        statement := ((graph.vertex? parent).map Vertex.statement).getD ⟨0⟩ } := by
  unfold reusable? at missing
  unfold fetchVertex
  simp only
  rw [show (graph.children parent).find? (fun child => (graph.vertex? child).any
    fun vertex => vertex.isFetchable field collection) = none from missing]

/-- A fetch looks at the edge of a vertex and at whether the vertex is fetched. -/
theorem fetchable_congr
    {field : Field}
    (edge : after.edge? id = before.edge? id)
    (fetched : after.Marked Vertex.fetched id ↔ before.Marked Vertex.fetched id) :
    after.fetchable field collection id = before.fetchable field collection id := by
  unfold fetchable
  cases found : before.vertex? id with
  | none =>
      have missing : after.vertex? id = none := by
        unfold edge? at edge
        rw [found, Option.map_none, Option.map_eq_none_iff] at edge
        exact edge
      rw [missing]
  | some vertex =>
      obtain ⟨later, laterFound, same⟩ := edge?_eq_some.mp (edge.trans (edge?_of_vertex? found))
      rw [laterFound, Option.any_some, Option.any_some]
      rw [marked_iff laterFound, marked_iff found] at fetched
      have sameFetched : later.fetched = vertex.fetched := Bool.eq_iff_iff.mpr fetched
      simp only [Vertex.edge, Vertex.mk.injEq] at same
      simp only [Vertex.isFetchable, same, sameFetched]

/-- A fetch may reuse a vertex over its relation only. -/
theorem field_of_fetchable
    {field : Field}
    (fetchable : graph.fetchable field collection id = true) :
    ∃ edge, graph.edge? id = some edge ∧ edge.field = some field.name := by
  unfold JoinGraph.fetchable at fetchable
  cases found : graph.vertex? id with
  | none =>
      rw [found] at fetchable
      cases fetchable
  | some vertex =>
      rw [found, Option.any_some] at fetchable
      simp only [Vertex.isFetchable, Bool.and_eq_true, decide_eq_true_eq] at fetchable
      exact ⟨_, edge?_of_vertex? found, fetchable.1.1.1⟩

/-! ## Loading a vertex -/

/-- A fetch of a relation below a vertex has loaded a vertex. -/
structure Loads
    (before after : JoinGraph)
    (parent : VertexId)
    (name : String)
    (direction : JoinDirection)
    (id : VertexId) : Prop where
  granted : ∃ fetch declared, declared.field = name ∧ declared.direction = direction ∧
    before.Grants (.fetch fetch declared) parent id after
  appends : ∀ other, before.Appends after other
  evolves : before.Evolves after

namespace Loads

theorem of_fetchVertex
    {field : Field}
    (forest : before.Forest)
    (older : parent.index < before.size)
    (fetched : before.fetchVertex parent field target direction collection = (id, graph)) :
    before.Loads (graph.setFetched id) parent field.name direction id where
  granted := by
    have grants := @grants_fetchVertex before parent ⟨0⟩
      ⟨⟨0⟩, field.name, direction, collection, []⟩ field target forest older rfl
    simp only [fetched] at grants
    exact ⟨_, _, rfl, rfl, grants⟩
  appends other := by
    have appends : before.Appends (before.fetchVertex parent field target direction collection).2
        other := appends_fetchVertex older
    rw [fetched] at appends
    unfold Appends
    rw [children_setFetched]
    exact appends
  evolves := by
    have strokes := strokes_fetchVertex older field target direction collection
    rw [fetched] at strokes
    exact Strokes.evolves (strokes.tail (.load (lt_size_of_fetchVertex fetched)))

variable (loads : before.Loads after parent name direction id)

include loads

theorem forest : after.Forest := by
  obtain ⟨fetch, declared, -, -, grants⟩ := loads.granted
  exact grants.forest

theorem hangs : after.HangsOff id parent := by
  obtain ⟨fetch, declared, -, -, grants⟩ := loads.granted
  exact grants.hangsOff.mpr (Or.inr ⟨rfl, rfl⟩)

theorem hangsOff_iff
    {above : VertexId}
    (older : other.index < before.size) :
    after.HangsOff other above ↔ before.HangsOff other above := by
  obtain ⟨fetch, declared, -, -, grants⟩ := loads.granted
  exact grants.hangsOff_of_lt older

theorem edge?_of_ne (apart : other ≠ id) : after.edge? other = before.edge? other := by
  obtain ⟨fetch, declared, -, -, grants⟩ := loads.granted
  exact grants.edges.edge?_of_ne apart

theorem fetched_iff :
    after.Marked Vertex.fetched other ↔ before.Marked Vertex.fetched other ∨ other = id := by
  obtain ⟨fetch, declared, -, -, grants⟩ := loads.granted
  rw [grants.fetched]
  simp [Contributor.isFetch]

theorem typeOf_eq (older : other.index < before.size) :
    Graphing.typeOf after other = Graphing.typeOf before other := by
  obtain ⟨vertex, found⟩ := vertex?_of_lt older
  obtain ⟨later, laterFound, becomes⟩ := loads.evolves other vertex found
  simp [Graphing.typeOf, found, laterFound, becomes.recordType]

/-- What a fetch may reuse stays the same at every other vertex. -/
theorem fetchable_of_ne
    {field : Field}
    (apart : other ≠ id) :
    after.fetchable field collection other = before.fetchable field collection other := by
  refine fetchable_congr (loads.edge?_of_ne apart) ?_
  rw [loads.fetched_iff]
  simp [apart]

/-- A vertex that was there hung off the same parent over the same relation. -/
theorem shared
    {edge : Vertex}
    (found : before.edge? id = some edge) :
    edge.parent = some parent ∧ edge.field = some name := by
  obtain ⟨fetch, declared, rfl, -, grants⟩ := loads.granted
  obtain ⟨-, -, ⟨rfl, -⟩ | ⟨shared, sharedFound, hangs, fits, -⟩⟩ := grants.edges
  · exact absurd (lt_size_of_edge? found) (Nat.lt_irrefl _)
  · rw [found] at sharedFound
    cases sharedFound
    exact ⟨hangs, fits.field⟩

/-- What a fetch may reuse stays the same below another parent and over another relation. -/
theorem fetchable_of_apart
    {field : Field}
    {place : VertexId}
    (hangs : before.HangsOff other place)
    (apart : place = parent -> field.name ≠ name) :
    after.fetchable field collection other = before.fetchable field collection other := by
  by_cases here : other = id
  · -- The loaded vertex is over another relation, before and after.
    subst here
    obtain ⟨vertex, found, isParent⟩ := hangs
    obtain ⟨sameParent, sameName⟩ := loads.shared (edge?_of_vertex? found)
    change vertex.parent = some parent at sameParent
    change vertex.field = some name at sameName
    have samePlace : place = parent := Option.some.inj (isParent.symm.trans sameParent)
    have differs : ∀ {graph : JoinGraph} {later : Vertex}, graph.vertex? other = some later ->
        later.field = vertex.field -> graph.fetchable field collection other = false := by
      intro graph later laterFound sameField
      cases passes : graph.fetchable field collection other with
      | false => rfl
      | true =>
          obtain ⟨edge, edgeFound, isField⟩ := field_of_fetchable passes
          rw [edge?_of_vertex? laterFound] at edgeFound
          cases edgeFound
          change later.field = some field.name at isField
          rw [sameField, sameName] at isField
          exact absurd (Option.some.inj isField).symm (apart samePlace)
    obtain ⟨later, laterFound, becomes⟩ := loads.evolves other vertex found
    rw [differs laterFound becomes.field, differs found rfl]
  · exact loads.fetchable_of_ne here

/-- The loaded vertex may be reused, and its direction has taken in that of the fetch. -/
theorem loaded :
    ∃ vertex, after.vertex? id = some vertex ∧ vertex.field = some name ∧
      vertex.mode.isNew = false ∧ vertex.on = none ∧ vertex.fetched = true ∧
      vertex.direction.merge direction = vertex.direction := by
  have isFetched := loads.fetched_iff.mpr (Or.inr rfl)
  obtain ⟨fetch, declared, rfl, rfl, grants⟩ := loads.granted
  obtain ⟨edge, edges, kind⟩ := grants.edges
  obtain ⟨vertex, found, rfl⟩ := edge?_eq_some.mp ((edges id).trans (if_pos rfl))
  refine ⟨vertex, found, ?_⟩
  have fetched : vertex.fetched = true := (marked_iff found).mp isFetched
  rcases kind with ⟨-, recordType, statement, own⟩ | ⟨shared, -, -, fits, sharing⟩
  · simp only [Vertex.edge, Contributor.edge, Vertex.mk.injEq] at own
    exact ⟨own.2.1, by rw [own.2.2.2.1]; rfl, own.2.2.2.2.2.2.2.1, fetched,
      by rw [own.2.2.1]; exact JoinDirection.merge_self _⟩
  · have directions : vertex.direction = shared.direction.merge declared.direction :=
      congrArg Vertex.direction sharing
    have modes : vertex.edge.mode = ((Contributor.fetch fetch declared).share shared).mode :=
      congrArg Vertex.mode sharing
    have merges : vertex.mode.isNew = false := by
      change vertex.mode = shared.mode at modes
      rw [modes]
      exact fits.shared
    refine ⟨(congrArg Vertex.field sharing).trans fits.field, merges,
      (congrArg Vertex.on sharing).trans fits.free, fetched, ?_⟩
    rw [directions]
    exact JoinDirection.merge_merge_self _ _

theorem fetchable_self
    {field : Field}
    (named : field.name = name) :
    after.fetchable field collection id = true := by
  obtain ⟨vertex, found, isField, merges, free, fetched, -⟩ := loads.loaded
  unfold fetchable
  rw [found, Option.any_some]
  simp [Vertex.isFetchable, isField, named, merges, free, fetched]

end Loads

/-! ## Answers -/

/-- A graph in which a fetch finds a vertex that is loaded already, and whose direction has taken
in that of the fetch. -/
structure Answers
    (graph : JoinGraph)
    (schema : Schema)
    (parent : VertexId)
    (name : String)
    (direction : JoinDirection)
    (collection : CollectionFetch)
    (id : VertexId) : Prop where
  found : ∃ field target, schema.requireField (Graphing.typeOf graph parent) name = .ok field ∧
    field.target? = some target ∧ graph.reusable? parent field collection = some id
  absorbs : ∃ vertex, graph.vertex? id = some vertex ∧
    vertex.direction.merge direction = vertex.direction ∧ vertex.fetched = true

namespace Answers

theorem hangs
    (answers : graph.Answers schema parent name direction collection id)
    (forest : graph.Forest) :
    graph.HangsOff id parent := by
  obtain ⟨field, target, -, -, found⟩ := answers.found
  exact forest.listed.mp (List.mem_of_find?_eq_some found)

theorem field
    (answers : graph.Answers schema parent name direction collection id) :
    ∃ edge, graph.edge? id = some edge ∧ edge.field = some name := by
  obtain ⟨field, target, required, -, found⟩ := answers.found
  rw [← Schema.name_of_requireField required]
  exact field_of_fetchable (List.find?_some found)

/-- A fetch that has just loaded a vertex is answered with it. -/
theorem of_fetchVertex
    {field : Field}
    (forest : before.Forest)
    (older : parent.index < before.size)
    (required : schema.requireField (Graphing.typeOf before parent) name = .ok field)
    (leads : field.target? = some target)
    (fetched : before.fetchVertex parent field target direction collection = (id, graph)) :
    (graph.setFetched id).Answers schema parent name direction collection id := by
  have loads := Loads.of_fetchVertex forest older fetched
  have passes : (graph.setFetched id).fetchable field collection id = true :=
    loads.fetchable_self rfl
  obtain ⟨last, lastFound, -, -, -, isFetched, taken⟩ := loads.loaded
  refine ⟨⟨field, target, ?_, leads, ?_⟩, last, lastFound, taken, isFetched⟩
  · rw [loads.typeOf_eq older]
    exact required
  · unfold reusable?
    rw [children_setFetched]
    cases found : before.reusable? parent field collection with
    | some existing =>
        obtain ⟨oldPasses, earlier, later, children, first⟩ :=
          List.find?_eq_some_iff_append.mp found
        rw [fetchVertex_of_reusable? found] at fetched
        cases fetched
        have sameChildren : (before.modify id (Vertex.forced direction)).children parent =
            before.children parent := children_modify before id parent fun _ => rfl
        rw [sameChildren]
        refine List.find?_eq_some_iff_append.mpr ⟨passes, earlier, later, children, ?_⟩
        intro child member
        have apart : child ≠ id := by
          rintro rfl
          have contrary := first child member
          rw [oldPasses] at contrary
          cases contrary
        rw [loads.fetchable_of_ne apart]
        exact first child member
    | none =>
        rw [fetchVertex_of_none found] at fetched
        have newId : id = ⟨before.size⟩ := (congrArg Prod.fst fetched).symm
        have newGraph : graph = _ := (congrArg Prod.snd fetched).symm
        have grown : graph.children parent = before.children parent ++ [id] := by
          rw [newId, newGraph]
          exact (children_attach older rfl).trans (if_pos rfl)
        rw [grown]
        refine List.find?_eq_some_iff_append.mpr ⟨passes, before.children parent, [], rfl, ?_⟩
        intro child member
        have apart : child ≠ id := by
          rintro rfl
          rw [newId] at member
          exact absurd (forest.listed.mp member).lt_size (Nat.lt_irrefl _)
        rw [loads.fetchable_of_ne apart]
        simpa using List.find?_eq_none.mp found child member

/-- An answer stays the same when something else is loaded: a vertex below another parent, or
over another relation. -/
theorem loads
    {loadName : String}
    {loadDirection : JoinDirection}
    (answers : before.Answers schema parent name direction collection id)
    (forest : before.Forest)
    (loaded : before.Loads after place loadName loadDirection other)
    (apart : place = parent -> name ≠ loadName) :
    after.Answers schema parent name direction collection id := by
  have hangs := answers.hangs forest
  have older := Nat.lt_trans (forest.older hangs) hangs.lt_size
  obtain ⟨field, target, required, leads, found⟩ := answers.found
  have named := Schema.name_of_requireField required
  refine ⟨⟨field, target, ?_, leads, ?_⟩, ?_⟩
  · rw [loaded.typeOf_eq older]
    exact required
  · have foundThere : (before.children parent).find? (after.fetchable field collection) =
        some id := by
      rw [← found]
      refine List.find?_congr fun child member => ?_
      exact loaded.fetchable_of_apart (forest.listed.mp member) fun same =>
        named ▸ apart same.symm
    unfold reusable?
    rcases loaded.appends parent with kept | added
    · rw [kept, foundThere]
    · rw [added, List.find?_append, foundThere]
      rfl
  · obtain ⟨vertex, vertexFound, taken, fetched⟩ := answers.absorbs
    have here : id ≠ other := by
      rintro rfl
      obtain ⟨edge, edgeFound, isField⟩ := answers.field
      obtain ⟨isPlace, isName⟩ := loaded.shared edgeFound
      obtain ⟨again, foundAgain, isParent⟩ := hangsOff_iff.mp hangs
      rw [edgeFound] at foundAgain
      cases foundAgain
      exact apart (Option.some.inj (isPlace.symm.trans isParent))
        (Option.some.inj (isField.symm.trans isName))
    have sameEdge := loaded.edge?_of_ne here
    rw [edge?_of_vertex? vertexFound] at sameEdge
    obtain ⟨later, laterFound, same⟩ := edge?_eq_some.mp sameEdge
    obtain ⟨again, againFound, becomes⟩ := loaded.evolves id vertex vertexFound
    rw [laterFound] at againFound
    cases againFound
    have sameDirection : later.edge.direction = vertex.edge.direction :=
      congrArg Vertex.direction same
    change later.direction = vertex.direction at sameDirection
    exact ⟨later, laterFound, by rw [sameDirection, taken], becomes.fetched fetched⟩

end Answers
end JoinGraph
end QueryGraph
