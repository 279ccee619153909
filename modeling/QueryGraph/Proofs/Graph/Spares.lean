import QueryGraph.Proofs.Graph.Fetching
import QueryGraph.Proofs.Graph.Siblings

/-!
# Edges that fetches add

A fetch adds an edge next to one that it could share only when it loads the whole of a
collection, and none of the edges there is fetched. The added edge is fetched from then on, so
no further one is added next to it.
-/

namespace QueryGraph

namespace DeclarationMap

/-- The declaration that was given a vertex first. -/
def first? (map : DeclarationMap) (vertex : VertexId) : Option NodeId :=
  (map.entries.find? fun entry => entry.2 = vertex).map Prod.fst

theorem first?_insert_of_not_mem
    {map : DeclarationMap}
    {declaration : NodeId}
    {vertex id : VertexId}
    (fresh : declaration ∉ map.keys) :
    (map.insert declaration vertex).first? id =
      (map.first? id).or (if vertex = id then some declaration else none) := by
  unfold first?
  rw [entries_insert_of_not_mem vertex fresh, List.find?_append]
  cases map.entries.find? fun entry => entry.2 = id with
  | some entry => rfl
  | none =>
      by_cases here : vertex = id
      · simp [here]
      · simp [here]

/-- A vertex that is not there yet belongs to no declaration. -/
theorem first?_eq_none
    {map : DeclarationMap}
    {size : Nat}
    (present : ∀ entry ∈ map.entries, entry.2.index < size) :
    map.first? ⟨size⟩ = none := by
  unfold first?
  rw [Option.map_eq_none_iff, List.find?_eq_none]
  intro entry member same
  have below := present entry member
  rw [of_decide_eq_true same] at below
  exact Nat.lt_irrefl _ below

end DeclarationMap

namespace JoinGraph

/-- An edge without a condition that may be shared leads from a vertex over a relation. -/
def FreeBelow
    (graph : JoinGraph)
    (parent : VertexId)
    (name : String)
    (id : VertexId) : Prop :=
  ∃ edge, graph.edge? id = some edge ∧ edge.parent = some parent ∧ edge.field = some name ∧
    edge.Free

variable {graph before after : JoinGraph} {parent id place : VertexId} {name : String}

namespace FreeBelow

theorem hangsOff (free : graph.FreeBelow parent name id) : graph.HangsOff id parent := by
  obtain ⟨edge, found, hangs, -⟩ := free
  exact hangsOff_iff.mpr ⟨edge, found, hangs⟩

theorem eq_of_sole
    {other : VertexId}
    (sole : graph.Sole Vertex.Free)
    (first : graph.FreeBelow parent name id)
    (second : graph.FreeBelow parent name other) :
    id = other := by
  obtain ⟨edge, found, hangs, field, free⟩ := first
  obtain ⟨otherEdge, otherFound, otherHangs, otherField, otherFree⟩ := second
  exact sole.eq found otherFound hangs otherHangs (field.trans otherField.symm) free otherFree

/-- Such an edge was there, or it is the edge of its own that a contributor is given. -/
theorem of_seats
    {contributor : Contributor}
    {above : VertexId}
    (seats : before.Seats contributor above place after)
    (free : after.FreeBelow parent name id) :
    before.FreeBelow parent name id ∨
      id = place ∧ place = ⟨before.size⟩ ∧ parent = above ∧ name = contributor.field := by
  obtain ⟨edge, found, hangs, field, isFree⟩ := free
  obtain ⟨newEdge, edges, placed⟩ := seats
  rw [edges] at found
  split at found
  · next here =>
      cases found
      rcases placed with ⟨new, recordType, statement, rfl⟩ | ⟨shared, present, -, -, rfl⟩
      · cases hangs
        cases field
        exact Or.inr ⟨here, new, rfl, rfl⟩
      · rw [← here] at present
        exact Or.inl ⟨shared, present, hangs, field, isFree.of_share⟩
  · exact Or.inl ⟨edge, found, hangs, field, isFree⟩

end FreeBelow

/-- A fetch that is given a new vertex passed by every edge that it could share but for its
extent: it loads the whole of a collection, and the edge is not fetched. -/
theorem FreeBelow.passed
    {field : Field}
    {target : String}
    {direction : JoinDirection}
    {collection : CollectionFetch}
    (free : before.FreeBelow parent field.name id)
    (forest : before.Forest)
    (fetched : before.fetchVertex parent field target direction collection =
      (⟨before.size⟩, after)) :
    collection = .all ∧ field.isToOne = false ∧ ¬ before.Marked Vertex.fetched id := by
  have listed := forest.listed.mpr free.hangsOff
  obtain ⟨edge, found, -, isField, merges, unconditioned⟩ := free
  obtain ⟨vertex, present, rfl⟩ := edge?_eq_some.mp found
  change vertex.field = some field.name at isField
  change vertex.mode.isNew = false at merges
  change vertex.on = none at unconditioned
  unfold fetchVertex at fetched
  simp only at fetched
  split at fetched
  · next existing reusable =>
      cases fetched
      have fetchable := List.find?_some reusable
      rw [vertex?_size] at fetchable
      cases fetchable
  · next passed =>
      have refused := List.find?_eq_none.mp passed id listed
      rw [marked_iff present]
      simp only [present, Option.any_some, Vertex.isFetchable, isField, merges, unconditioned,
        decide_true, Bool.not_false, Option.isNone_none, Bool.and_self, Bool.true_and,
        Bool.or_eq_true, decide_eq_true_eq, not_or, Bool.not_eq_true] at refused
      refine ⟨?_, refused.1.2, by simp [refused.2]⟩
      cases collection with
      | all => rfl
      | partially => exact absurd rfl refused.1.1

/-- A vertex of a graph keeps its type while the graph grows. -/
theorem Grows.typeOf_eq
    (grows : before.Grows after)
    (present : id.index < before.size) :
    Graphing.typeOf after id = Graphing.typeOf before id := by
  obtain ⟨vertex, found⟩ := vertex?_of_lt present
  obtain ⟨later, laterFound, sameType, -⟩ := grows id vertex found
  simp [Graphing.typeOf, found, laterFound, sameType]

end JoinGraph

namespace GraphState

/-- What fetches left of the edges that may be shared and carry no condition. An edge of the
start is as it was; any other edge is fetched, no two of them are siblings, and one with an
older sibling was added for the whole of a collection. -/
structure Spares
    (schema : Schema)
    (tree : Tree)
    (start : JoinGraph)
    (state : GraphState) : Prop where
  forest : state.graph.Forest
  size_le : start.size ≤ state.graph.size
  present : ∀ entry ∈ state.declared.entries, entry.2.index < state.graph.size
  older : ∀ {parent name id}, state.graph.FreeBelow parent name id -> id.index < start.size ->
    start.FreeBelow parent name id
  unique : ∀ {parent name first second}, state.graph.FreeBelow parent name first ->
    state.graph.FreeBelow parent name second -> start.size ≤ first.index ->
    start.size ≤ second.index -> first = second
  added : ∀ {parent name id}, state.graph.FreeBelow parent name id -> start.size ≤ id.index ->
    state.graph.Marked Vertex.fetched id ∧
      ∃ fetch declared, state.declared.first? id = some fetch ∧
        tree.fetch? fetch = some declared ∧
        ((∃ rival, state.graph.FreeBelow parent name rival ∧ rival.index < id.index) ->
          declared.collection = .all ∧
          ∀ {field}, schema.requireField (Graphing.typeOf state.graph parent) name = .ok field ->
            field.isToOne = false)

namespace Spares

variable {schema : Schema} {tree : Tree} {start : JoinGraph} {state after : GraphState}

theorem refl (forest : start.Forest) : Spares schema tree start { graph := start } where
  forest := forest
  size_le := Nat.le_refl _
  present _ member := by cases member
  older free _ := free
  unique free _ newer _ := absurd free.hangsOff.lt_size (Nat.not_lt.mpr newer)
  added free newer := absurd free.hangsOff.lt_size (Nat.not_lt.mpr newer)

/-- The only edge that was not there before a fetch is the one that the fetch is given. -/
theorem freeBelow_cases
    {declared : Fetch}
    {id : NodeId}
    {parent vertex owner place : VertexId}
    {relation : String}
    {graph : JoinGraph}
    (seats : state.graph.Seats (.fetch id declared) parent vertex graph)
    (free : graph.FreeBelow owner relation place) :
    state.graph.FreeBelow owner relation place ∨
      place = ⟨state.graph.size⟩ ∧ vertex = ⟨state.graph.size⟩ ∧ owner = parent ∧
        relation = declared.field := by
  rcases free.of_seats seats with old | ⟨rfl, new, rfl, rfl⟩
  · exact Or.inl old
  · exact Or.inr ⟨new, new, rfl, rfl⟩

theorem step
    (spares : state.Spares schema tree start)
    (step : state.FetchStep schema tree after) :
    after.Spares schema tree start := by
  obtain @⟨id, declared, parent, vertex, field, target, graph, isFetch, fresh, above, required,
    leads, fetched⟩ := step
  have name := Schema.name_of_requireField required
  have step : state.graph.Step (.granted (.fetch id declared) parent vertex)
      (graph.setFetched vertex) := .of_fetchVertex above name fetched
  have effect := step.effect spares.forest
  have before : ∀ {owner relation place}, (graph.setFetched vertex).FreeBelow owner relation place ->
      state.graph.FreeBelow owner relation place ∨
        place = ⟨state.graph.size⟩ ∧ vertex = ⟨state.graph.size⟩ ∧ owner = parent ∧
          relation = declared.field := freeBelow_cases effect.edges.1
  have passed : ∀ {place}, state.graph.FreeBelow parent declared.field place ->
      vertex = ⟨state.graph.size⟩ -> declared.collection = .all ∧ field.isToOne = false ∧
        ¬ state.graph.Marked Vertex.fetched place := by
    rintro place free rfl
    rw [← name] at free
    exact free.passed spares.forest fetched
  refine ⟨effect.forest, Nat.le_trans spares.size_le effect.size_le, ?_, ?_, ?_, ?_⟩
  · intro entry member
    rw [DeclarationMap.entries_insert_of_not_mem vertex fresh] at member
    rcases List.mem_append.mp member with old | new
    · exact Nat.lt_of_lt_of_le (spares.present entry old) effect.size_le
    · rw [List.mem_singleton.mp new]
      exact effect.present
  · intro owner relation place free olderPlace
    rcases before free with old | ⟨rfl, -⟩
    · exact spares.older old olderPlace
    · exact absurd olderPlace (Nat.not_lt.mpr spares.size_le)
  · intro owner relation first second firstFree secondFree firstNewer secondNewer
    -- A vertex that fetches added is fetched, and a fetch does not pass by such a one.
    have apart : ∀ {place}, state.graph.FreeBelow parent declared.field place ->
        start.size ≤ place.index -> vertex = ⟨state.graph.size⟩ -> False := by
      intro place old newer new
      exact (passed old new).2.2 (spares.added old newer).1
    rcases before firstFree with firstOld | ⟨firstNew, new, rfl, rfl⟩
    · rcases before secondFree with secondOld | ⟨secondNew, new, rfl, rfl⟩
      · exact spares.unique firstOld secondOld firstNewer secondNewer
      · exact (apart firstOld firstNewer new).elim
    · rcases before secondFree with secondOld | ⟨secondNew, -, -, -⟩
      · exact (apart secondOld secondNewer new).elim
      · rw [firstNew, secondNew]
  · intro owner relation place free newer
    have first? : (state.declared.insert id vertex).first? place =
        (state.declared.first? place).or (if vertex = place then some id else none) :=
      DeclarationMap.first?_insert_of_not_mem fresh
    rcases before free with old | ⟨rfl, new, rfl, rfl⟩
    · obtain ⟨isFetched, fetch, body, firstFound, isFetch, whole⟩ := spares.added old newer
      refine ⟨effect.fetched.mpr (Or.inl isFetched), fetch, body, ?_, isFetch, ?_⟩
      · rw [first?, firstFound, Option.some_or]
      · rintro ⟨rival, rivalFree, rivalOlder⟩
        have present := old.hangsOff.lt_size
        rcases before rivalFree with rivalOld | ⟨rfl, -⟩
        · rw [step.grows.typeOf_eq (Nat.lt_trans (spares.forest.older old.hangsOff) present)]
          exact whole ⟨rival, rivalOld, rivalOlder⟩
        · exact absurd present (Nat.not_lt.mpr (Nat.le_of_lt rivalOlder))
    · refine ⟨effect.fetched.mpr (Or.inr ⟨rfl, new.symm⟩), id, declared, ?_, isFetch, ?_⟩
      · rw [first?, DeclarationMap.first?_eq_none spares.present, if_pos new, Option.none_or]
      · rintro ⟨rival, rivalFree, rivalOlder⟩
        rcases before rivalFree with rivalOld | ⟨rfl, -⟩
        · obtain ⟨whole, many, -⟩ := passed rivalOld new
          refine ⟨whole, fun again => ?_⟩
          rw [step.grows.typeOf_eq above, required] at again
          cases again
          exact many
        · exact absurd rivalOlder (Nat.lt_irrefl _)

/-- Of two siblings the later one was added for a fetch of the whole of a collection. -/
theorem added_of_lt
    {parent first second : VertexId}
    {name : String}
    (spares : state.Spares schema tree start)
    (sole : start.Sole Vertex.Free)
    (firstFree : state.graph.FreeBelow parent name first)
    (secondFree : state.graph.FreeBelow parent name second)
    (earlier : first.index < second.index) :
    start.size ≤ second.index ∧ state.graph.Marked Vertex.fetched second ∧
      ∃ fetch declared, state.declared.first? second = some fetch ∧
        tree.fetch? fetch = some declared ∧ declared.collection = .all ∧
        ∀ {field}, schema.requireField (Graphing.typeOf state.graph parent) name = .ok field ->
          field.isToOne = false := by
  have newer : start.size ≤ second.index := by
    by_contra older
    have firstOld := spares.older firstFree (by omega)
    have secondOld := spares.older secondFree (by omega)
    rw [firstOld.eq_of_sole sole secondOld] at earlier
    exact Nat.lt_irrefl _ earlier
  obtain ⟨fetched, fetch, declared, found, isFetch, whole⟩ := spares.added secondFree newer
  obtain ⟨all, many⟩ := whole ⟨first, firstFree, earlier⟩
  exact ⟨newer, fetched, fetch, declared, found, isFetch, all, many⟩

/-- There are never three siblings. -/
theorem not_three
    {parent first second third : VertexId}
    {name : String}
    (spares : state.Spares schema tree start)
    (sole : start.Sole Vertex.Free)
    (firstFree : state.graph.FreeBelow parent name first)
    (secondFree : state.graph.FreeBelow parent name second)
    (thirdFree : state.graph.FreeBelow parent name third)
    (earlier : first.index < second.index)
    (later : second.index < third.index) :
    False := by
  obtain ⟨secondNewer, -⟩ := spares.added_of_lt sole firstFree secondFree earlier
  obtain ⟨thirdNewer, -⟩ := spares.added_of_lt sole secondFree thirdFree later
  rw [spares.unique secondFree thirdFree secondNewer thirdNewer] at later
  exact Nat.lt_irrefl _ later

end Spares

theorem Fetches.spares
    {schema : Schema}
    {tree : Tree}
    {start : JoinGraph}
    {after : GraphState}
    (fetches : GraphState.Fetches schema tree { graph := start } after)
    (forest : start.Forest) :
    after.Spares schema tree start := by
  induction fetches with
  | refl => exact .refl forest
  | tail _ step inductionHypothesis => exact inductionHypothesis.step step

end GraphState
end QueryGraph
