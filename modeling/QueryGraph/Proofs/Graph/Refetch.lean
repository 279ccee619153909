import Mathlib.Data.List.Forall2
import QueryGraph.Proofs.Graph.Loading

/-!
# Fetching twice

A fetch that was merged below a vertex, with everything that is fetched below it, is absorbed: a
second one that declares the same finds the same vertices and changes nothing. While a fetch is
merged, what was loaded before for another branch of it stays loaded and stays the first answer.
-/

namespace QueryGraph

namespace FetchTree

/-- Two fetches that declare the same, as do the fetches below them in their order. -/
def Copies : FetchTree -> FetchTree -> Prop
  | .mk _ field direction collection nested, .mk _ otherField otherDirection otherCollection
      otherNested =>
      field = otherField ∧ direction = otherDirection ∧ collection = otherCollection ∧
        all nested otherNested
where
  /-- Fetches that declare the same, one by one. -/
  all : List FetchTree -> List FetchTree -> Prop
    | [], [] => True
    | fetch :: fetches, other :: others => fetch.Copies other ∧ all fetches others
    | _, _ => False

/-- No two fetches of one list below a fetch are of the same relation. -/
def SiblingsDiffer : FetchTree -> Prop
  | .mk _ _ _ _ nested => (nested.map FetchTree.field).Nodup ∧ all nested
where
  /-- No two fetches of one list below any of some fetches are of the same relation. -/
  all : List FetchTree -> Prop
    | [] => True
    | fetch :: fetches => fetch.SiblingsDiffer ∧ all fetches

end FetchTree

/-- Two lists that go with the same third one go with each other. -/
theorem forall₂_of_common
    {first second third : Type}
    {firstGoes : first -> third -> Prop}
    {secondGoes : second -> third -> Prop}
    {firsts : List first}
    {seconds : List second}
    {thirds : List third}
    (left : List.Forall₂ firstGoes firsts thirds)
    (right : List.Forall₂ secondGoes seconds thirds) :
    List.Forall₂ (fun one other => ∃ common, firstGoes one common ∧ secondGoes other common) firsts
      seconds := by
  induction left generalizing seconds with
  | nil =>
      cases right
      exact .nil
  | cons goes _ inductionHypothesis =>
      cases right with
      | cons otherGoes rest => exact .cons ⟨_, goes, otherGoes⟩ (inductionHypothesis rest)

namespace DeclarationMap

/-- Records the vertices of several declarations. -/
def insertAll
    (map : DeclarationMap)
    (entries : List (NodeId × VertexId)) : DeclarationMap :=
  entries.foldl (fun map entry => map.insert entry.1 entry.2) map

theorem insertAll_cons
    (map : DeclarationMap)
    (entry : NodeId × VertexId)
    (entries : List (NodeId × VertexId)) :
    map.insertAll (entry :: entries) = (map.insert entry.1 entry.2).insertAll entries := rfl

theorem insertAll_append
    (map : DeclarationMap)
    (first second : List (NodeId × VertexId)) :
    map.insertAll (first ++ second) = (map.insertAll first).insertAll second :=
  List.foldl_append

theorem find?_insertAll_of_not_mem
    {map : DeclarationMap}
    {entries : List (NodeId × VertexId)}
    {declaration : NodeId}
    (new : declaration ∉ entries.map Prod.fst) :
    (map.insertAll entries).find? declaration = map.find? declaration := by
  induction entries generalizing map with
  | nil => rfl
  | cons entry entries inductionHypothesis =>
      rw [List.map_cons, List.mem_cons, not_or] at new
      rw [insertAll_cons, inductionHypothesis new.2, find?_insert, if_neg new.1]

/-- Where no declaration is recorded twice, each has the vertex that was recorded for it. -/
theorem find?_insertAll_zip
    {map : DeclarationMap}
    {ids : List NodeId}
    {vertices : List VertexId}
    (nodup : ids.Nodup)
    (length : ids.length = vertices.length) :
    List.Forall₂ (fun id vertex => (map.insertAll (ids.zip vertices)).find? id = some vertex) ids
      vertices := by
  induction ids generalizing map vertices with
  | nil =>
      rw [List.length_nil] at length
      rw [List.eq_nil_of_length_eq_zero length.symm]
      exact .nil
  | cons id ids inductionHypothesis =>
      cases vertices with
      | nil => cases length
      | cons vertex vertices =>
          obtain ⟨new, rest⟩ := List.nodup_cons.mp nodup
          have notLater : id ∉ (ids.zip vertices).map Prod.fst := by
            rwa [List.map_fst_zip (Nat.le_of_eq (Nat.succ.inj length))]
          refine .cons ?_ (inductionHypothesis rest (Nat.succ.inj length))
          rw [List.zip_cons_cons, insertAll_cons, find?_insertAll_of_not_mem notLater]
          exact find?_insert_self map id vertex

end DeclarationMap

namespace JoinGraph

variable {before after graph : JoinGraph} {schema : Schema}
  {top parent place id other : VertexId} {name : String} {direction : JoinDirection}
  {collection : CollectionFetch}

/-! ## Loading below a vertex -/

/-- Vertices were loaded one after the other, each below a vertex or somewhere below that. -/
def LoadsUnder (top : VertexId) : JoinGraph -> JoinGraph -> Prop :=
  Relation.ReflTransGen fun before after => ∃ place name direction id,
    before.Under place top ∧ place.index < before.size ∧
      before.Loads after place name direction id

namespace LoadsUnder

theorem evolves (loads : LoadsUnder top before after) : before.Evolves after := by
  induction loads with
  | refl => exact .refl before
  | tail _ step inductionHypothesis =>
      obtain ⟨place, name, direction, id, -, -, loaded⟩ := step
      exact inductionHypothesis.trans loaded.evolves

theorem forest
    (loads : LoadsUnder top before after)
    (forest : before.Forest) :
    after.Forest := by
  cases loads with
  | refl => exact forest
  | tail _ step =>
      obtain ⟨place, name, direction, id, -, -, loaded⟩ := step
      exact loaded.forest

theorem hangsOff_iff
    {above : VertexId}
    (loads : LoadsUnder top before after)
    (older : id.index < before.size) :
    after.HangsOff id above ↔ before.HangsOff id above := by
  induction loads with
  | refl => rfl
  | tail earlier step inductionHypothesis =>
      obtain ⟨place, name, direction, vertex, -, -, loaded⟩ := step
      rw [loaded.hangsOff_iff ((evolves earlier).lt_size older), inductionHypothesis]

/-- Nothing comes to stand above a vertex that was there. -/
theorem under_iff
    {above : VertexId}
    (loads : LoadsUnder top before after)
    (isForest : before.Forest)
    (older : id.index < before.size) :
    after.Under id above ↔ before.Under id above :=
  ⟨Under.of_hangsOff (loads.forest isForest) (fun older => (loads.hangsOff_iff older).mp) older,
    Under.of_hangsOff isForest (fun older => (loads.hangsOff_iff older).mpr) older⟩

theorem widen
    (loads : LoadsUnder id before after)
    (hangs : before.HangsOff id top) :
    LoadsUnder top before after := by
  induction loads with
  | refl => exact .refl
  | tail earlier step inductionHypothesis =>
      obtain ⟨place, name, direction, vertex, under, present, loaded⟩ := step
      have stillHangs := (evolves earlier).hangsOff hangs
      exact inductionHypothesis.tail
        ⟨place, name, direction, vertex, under.tail stillHangs, present, loaded⟩

/-- An answer stays the same while vertices are loaded under another one that it is not under. -/
theorem answers
    (loads : LoadsUnder top before after)
    (isForest : before.Forest)
    (apart : ¬ before.Under parent top)
    (answers : before.Answers schema parent name direction collection id) :
    after.Answers schema parent name direction collection id := by
  have hangs := answers.hangs isForest
  have older := Nat.lt_trans (isForest.older hangs) hangs.lt_size
  induction loads with
  | refl => exact answers
  | tail earlier step inductionHypothesis =>
      obtain ⟨place, loadName, loadDirection, vertex, under, present, loaded⟩ := step
      refine inductionHypothesis.loads (LoadsUnder.forest earlier isForest) loaded fun same => ?_
      rw [same, LoadsUnder.under_iff earlier isForest older] at under
      exact absurd under apart

end LoadsUnder

/-! ## What was fetched -/

mutual

/-- A fetch is answered with a vertex, and what is fetched below it is answered below that. The
vertices are listed in the order of the fetches. -/
inductive Lodges (graph : JoinGraph) (schema : Schema) :
    VertexId -> FetchTree -> List VertexId -> Prop
  | mk
      {parent vertex : VertexId}
      {id : NodeId}
      {name : String}
      {direction : JoinDirection}
      {collection : CollectionFetch}
      {nested : List FetchTree}
      {vertices : List VertexId}
      (answers : graph.Answers schema parent name direction collection vertex)
      (below : LodgesAll graph schema vertex nested vertices) :
      Lodges graph schema parent (.mk id name direction collection nested) (vertex :: vertices)

/-- Several fetches are answered below a vertex. -/
inductive LodgesAll (graph : JoinGraph) (schema : Schema) :
    VertexId -> List FetchTree -> List VertexId -> Prop
  | nil
      {parent : VertexId} :
      LodgesAll graph schema parent [] []
  | cons
      {parent : VertexId}
      {fetch : FetchTree}
      {fetches : List FetchTree}
      {here vertices : List VertexId}
      (first : Lodges graph schema parent fetch here)
      (rest : LodgesAll graph schema parent fetches vertices) :
      LodgesAll graph schema parent (fetch :: fetches) (here ++ vertices)

end

mutual

theorem Lodges.length_eq
    {parent : VertexId}
    {vertices : List VertexId} :
    (fetch : FetchTree) -> graph.Lodges schema parent fetch vertices ->
      fetch.ids.length = vertices.length
  | .mk id name direction collection nested, lodges => by
      cases lodges with
      | mk answers below =>
          rw [FetchTree.ids, List.length_cons, List.length_cons, below.length_eq nested]

theorem LodgesAll.length_eq
    {parent : VertexId}
    {vertices : List VertexId} :
    (fetches : List FetchTree) -> graph.LodgesAll schema parent fetches vertices ->
      (FetchTree.ids.nestedIds fetches).length = vertices.length
  | [], lodges => by
      cases lodges
      rfl
  | fetch :: fetches, lodges => by
      cases lodges with
      | cons first rest =>
          rw [FetchTree.ids.nestedIds, List.length_append, List.length_append,
            first.length_eq fetch, rest.length_eq fetches]

end

mutual

/-- What is fetched below a vertex is told by what is declared. -/
theorem Lodges.copy
    {parent : VertexId}
    {vertices : List VertexId} :
    (fetch copy : FetchTree) -> fetch.Copies copy -> graph.Lodges schema parent fetch vertices ->
      graph.Lodges schema parent copy vertices
  | .mk _ _ _ _ nested, .mk _ _ _ _ others, copies, lodges => by
      obtain ⟨rfl, rfl, rfl, nestedCopies⟩ := copies
      cases lodges with
      | mk answers below => exact .mk answers (below.copy nested others nestedCopies)

theorem LodgesAll.copy
    {parent : VertexId}
    {vertices : List VertexId} :
    (fetches copies : List FetchTree) -> FetchTree.Copies.all fetches copies ->
      graph.LodgesAll schema parent fetches vertices ->
      graph.LodgesAll schema parent copies vertices
  | [], [], _, lodges => lodges
  | fetch :: fetches, copy :: copies, both, lodges => by
      cases lodges with
      | cons first rest =>
          exact .cons (first.copy fetch copy both.1) (rest.copy fetches copies both.2)

end

mutual

/-- What is fetched below a vertex stays as it is in another graph, if every answer inside some
region stays the same there and leads to a vertex inside the region. -/
theorem Lodges.transfer
    {inside : VertexId -> Prop}
    {parent : VertexId}
    {vertices : List VertexId}
    (keeps : ∀ {parent id name direction collection}, inside parent ->
      before.Answers schema parent name direction collection id ->
        after.Answers schema parent name direction collection id ∧ inside id)
    (here : inside parent) :
    (fetch : FetchTree) -> before.Lodges schema parent fetch vertices ->
      after.Lodges schema parent fetch vertices
  | .mk _ _ _ _ nested, lodges => by
      cases lodges with
      | mk answers below =>
          obtain ⟨answersAfter, stillInside⟩ := keeps here answers
          exact .mk answersAfter (below.transfer keeps stillInside nested)

theorem LodgesAll.transfer
    {inside : VertexId -> Prop}
    {parent : VertexId}
    {vertices : List VertexId}
    (keeps : ∀ {parent id name direction collection}, inside parent ->
      before.Answers schema parent name direction collection id ->
        after.Answers schema parent name direction collection id ∧ inside id)
    (here : inside parent) :
    (fetches : List FetchTree) -> before.LodgesAll schema parent fetches vertices ->
      after.LodgesAll schema parent fetches vertices
  | [], lodges => by
      cases lodges
      exact .nil
  | fetch :: fetches, lodges => by
      cases lodges with
      | cons first rest =>
          exact .cons (first.transfer keeps here fetch) (rest.transfer keeps here fetches)

end

/-- What is fetched below a vertex stays as it is while something is loaded above. -/
theorem LodgesAll.loads
    {fetches : List FetchTree}
    {vertices : List VertexId}
    (forest : before.Forest)
    (loaded : before.Loads after place name direction other)
    (above : place.index < parent.index)
    (lodges : before.LodgesAll schema parent fetches vertices) :
    after.LodgesAll schema parent fetches vertices := by
  have keeps : ∀ {parent id name direction collection}, place.index < parent.index ->
      before.Answers schema parent name direction collection id ->
        after.Answers schema parent name direction collection id ∧ place.index < id.index := by
    intro parent id name direction collection above answers
    have apart : place ≠ parent := by
      rintro rfl
      exact Nat.lt_irrefl _ above
    have older := forest.older (answers.hangs forest)
    exact ⟨answers.loads forest loaded fun same => absurd same apart, Nat.lt_trans above older⟩
  exact lodges.transfer keeps above fetches

/-- What is fetched below a vertex stays as it is while vertices are loaded in another branch. -/
theorem LodgesAll.loadsUnder
    {fetches : List FetchTree}
    {vertices : List VertexId}
    (forest : before.Forest)
    (loads : LoadsUnder top before after)
    (notUnder : ¬ before.Under parent top)
    (notAbove : ¬ before.Under top parent)
    (lodges : before.LodgesAll schema parent fetches vertices) :
    after.LodgesAll schema parent fetches vertices := by
  have keeps : ∀ {parent id name direction collection},
      (¬ before.Under parent top ∧ ¬ before.Under top parent) ->
      before.Answers schema parent name direction collection id ->
        after.Answers schema parent name direction collection id ∧
          ¬ before.Under id top ∧ ¬ before.Under top id := by
    intro parent id name direction collection apart answers
    have hangs := answers.hangs forest
    refine ⟨loads.answers forest apart.1 answers, fun under => ?_, fun under => ?_⟩
    · exact (under.total (.single hangs)).elim apart.2 apart.1
    · exact apart.2 (under.tail hangs)
  exact lodges.transfer keeps ⟨notUnder, notAbove⟩ fetches

/-! ## A graph that absorbs a fetch -/

theorem modify_forced_eq
    {vertex : Vertex}
    (found : graph.vertex? id = some vertex)
    (taken : vertex.direction.merge direction = vertex.direction) :
    graph.modify id (Vertex.forced direction) = graph := by
  refine ext_vertex? fun other => ?_
  rw [vertex?_modify_of_found found]
  split
  · next here =>
      rw [here, found, Vertex.forced, taken]
  · rfl

/-- Loading a vertex that is loaded already changes nothing. -/
theorem Upright.setFetched_eq
    (upright : graph.Upright)
    (fetched : graph.Marked Vertex.fetched id) :
    graph.setFetched id = graph := by
  refine ext_vertex? fun other => ?_
  obtain ⟨vertex, found, isFetched⟩ := fetched
  have kept : ∀ {later : Vertex}, graph.vertex? other = some later ->
      (later.fetched || decide (other = id)) = later.fetched := by
    intro later laterFound
    by_cases here : other = id
    · rw [here, found] at laterFound
      cases laterFound
      simp [isFetched]
    · simp [here]
  rw [vertex?_setFetched]
  cases laterFound : graph.vertex? other with
  | none => split <;> rfl
  | some later =>
      split
      · next above =>
          have under := (mem_ancestry upright.forest (lt_size_of_vertex? found)).mp above
          obtain ⟨used, explicit⟩ := upright.fetched ⟨vertex, found, isFetched⟩ under
          rw [marked_iff laterFound] at used explicit
          rw [Option.map_some, kept laterFound]
          cases later
          simp_all
      · rw [Option.map_some, kept laterFound]

end JoinGraph

namespace Graphing

open JoinGraph
open Operation (finalState)

variable {schema : Schema} {graph : JoinGraph} {before after : GraphState} {parent : VertexId}

mutual

/-- A graph in which a fetch is answered merges it without a change. -/
theorem mergeFetch_of_lodges
    {parent : VertexId}
    {vertices : List VertexId}
    (upright : graph.Upright)
    (declared : DeclarationMap) :
    (fetch : FetchTree) -> graph.Lodges schema parent fetch vertices ->
      mergeFetch schema parent fetch ⟨graph, declared⟩ =
        .ok () ⟨graph, declared.insertAll (fetch.ids.zip vertices)⟩
  | .mk id name direction collection nested, lodges => by
      cases lodges with
      | @mk _ vertex _ _ _ _ _ rest answers below =>
          obtain ⟨field, target, required, leads, found⟩ := answers.found
          obtain ⟨body, bodyFound, taken, isFetched⟩ := answers.absorbs
          have same : graph.fetchVertex parent field target direction collection =
              (vertex, graph) := by
            rw [fetchVertex_of_reusable? found, modify_forced_eq bodyFound taken]
          refine mergeFetch_eq_ok.mpr ⟨field, target, vertex, graph, required, leads, same, ?_⟩
          rw [upright.setFetched_eq ⟨body, bodyFound, isFetched⟩]
          exact mergeFetches_of_lodges upright (declared.insert id vertex) nested below

theorem mergeFetches_of_lodges
    {parent : VertexId}
    {vertices : List VertexId}
    (upright : graph.Upright)
    (declared : DeclarationMap) :
    (fetches : List FetchTree) -> graph.LodgesAll schema parent fetches vertices ->
      mergeFetches schema parent fetches ⟨graph, declared⟩ =
        .ok () ⟨graph, declared.insertAll ((FetchTree.ids.nestedIds fetches).zip vertices)⟩
  | [], lodges => by
      cases lodges
      rfl
  | fetch :: fetches, lodges => by
      cases lodges with
      | cons first rest =>
          have merged := mergeFetch_of_lodges upright declared fetch first
          rw [mergeFetches, Operation.bind_of_ok merged,
            mergeFetches_of_lodges upright _ fetches rest, FetchTree.ids.nestedIds,
            List.zip_append (first.length_eq fetch), DeclarationMap.insertAll_append]

end

mutual

/-- Merging a fetch loads vertices under its parent. -/
theorem loadsUnder_mergeFetch
    {parent : VertexId}
    {before after : GraphState}
    (forest : before.graph.Forest)
    (older : parent.index < before.graph.size) :
    (fetch : FetchTree) -> mergeFetch schema parent fetch before = .ok () after ->
      LoadsUnder parent before.graph after.graph
  | .mk id name direction collection nested, done => by
      obtain ⟨field, target, vertex, graph, required, -, fetched, rest⟩ := mergeFetch_eq_ok.mp done
      have loaded := Loads.of_fetchVertex forest older fetched
      have below := loadsUnder_mergeFetches loaded.forest loaded.hangs.lt_size nested rest
      exact .head ⟨parent, field.name, direction, vertex, .refl, older, loaded⟩
        (below.widen loaded.hangs)

theorem loadsUnder_mergeFetches
    {parent : VertexId}
    {before after : GraphState}
    (forest : before.graph.Forest)
    (older : parent.index < before.graph.size) :
    (fetches : List FetchTree) -> mergeFetches schema parent fetches before = .ok () after ->
      LoadsUnder parent before.graph after.graph
  | [], done => by
      cases done
      exact .refl
  | fetch :: fetches, done => by
      obtain ⟨⟨⟩, between, first, rest⟩ := Operation.bind_eq_ok.mp done
      have here := loadsUnder_mergeFetch forest older fetch first
      exact here.trans (loadsUnder_mergeFetches (here.forest forest) (here.evolves.lt_size older)
        fetches rest)

end

/-- What was fetched below a vertex stays as it is while a fetch of another relation is merged
below that vertex. -/
theorem lodges_of_mergeFetch
    {fetch other : FetchTree}
    {vertices : List VertexId}
    (forest : before.graph.Forest)
    (older : parent.index < before.graph.size)
    (apart : fetch.field ≠ other.field)
    (done : mergeFetch schema parent other before = .ok () after)
    (lodges : before.graph.Lodges schema parent fetch vertices) :
    after.graph.Lodges schema parent fetch vertices := by
  obtain ⟨id, name, direction, collection, nested⟩ := other
  obtain ⟨field, target, branch, graph, required, -, fetched, rest⟩ := mergeFetch_eq_ok.mp done
  have loaded := Loads.of_fetchVertex forest older fetched
  rw [Schema.name_of_requireField required] at loaded
  have below := loadsUnder_mergeFetches loaded.forest loaded.hangs.lt_size nested rest
  have newer := loaded.forest.older loaded.hangs
  cases lodges with
  | @mk _ vertex _ _ _ _ _ _ answers lodgesBelow =>
      have answersLoaded := answers.loads forest loaded fun _ => apart
      have lodgesLoaded := lodgesBelow.loads forest loaded (forest.older (answers.hangs forest))
      have hangs := answersLoaded.hangs loaded.forest
      have differs : vertex ≠ branch := by
        rintro rfl
        obtain ⟨edge, edgeFound, isField⟩ := answersLoaded.field
        obtain ⟨body, bodyFound, rfl⟩ := edge?_eq_some.mp edgeFound
        obtain ⟨again, againFound, isName, -⟩ := loaded.loaded
        rw [bodyFound] at againFound
        cases againFound
        exact apart (Option.some.inj (isField.symm.trans isName))
      refine .mk (below.answers loaded.forest ?_ answersLoaded)
        (lodgesLoaded.loadsUnder loaded.forest below ?_ ?_)
      · exact fun under => Nat.not_le.mpr newer (Under.le loaded.forest under)
      · exact fun under => differs (Under.sibling_eq loaded.forest hangs loaded.hangs .refl under)
      · exact fun under =>
          differs (Under.sibling_eq loaded.forest loaded.hangs hangs .refl under).symm

/-- As `lodges_of_mergeFetch`, for several fetches. -/
theorem lodges_of_mergeFetches
    {fetch : FetchTree}
    {fetches : List FetchTree}
    {vertices : List VertexId}
    (forest : before.graph.Forest)
    (older : parent.index < before.graph.size)
    (apart : ∀ other ∈ fetches, fetch.field ≠ other.field)
    (done : mergeFetches schema parent fetches before = .ok () after)
    (lodges : before.graph.Lodges schema parent fetch vertices) :
    after.graph.Lodges schema parent fetch vertices := by
  induction fetches generalizing before with
  | nil =>
      cases done
      exact lodges
  | cons other fetches inductionHypothesis =>
      obtain ⟨⟨⟩, between, first, rest⟩ := Operation.bind_eq_ok.mp done
      have here := loadsUnder_mergeFetch forest older other first
      exact inductionHypothesis (here.forest forest) (here.evolves.lt_size older)
        (fun next member => apart next (List.mem_cons_of_mem other member)) rest
        (lodges_of_mergeFetch forest older (apart other List.mem_cons_self) first lodges)

mutual

/-- A fetch that was merged is answered from then on. -/
theorem exists_lodges_mergeFetch
    {parent : VertexId}
    {before after : GraphState}
    (forest : before.graph.Forest)
    (older : parent.index < before.graph.size) :
    (fetch : FetchTree) -> fetch.SiblingsDiffer ->
      mergeFetch schema parent fetch before = .ok () after ->
      ∃ vertices, after.graph.Lodges schema parent fetch vertices ∧
        after.declared = before.declared.insertAll (fetch.ids.zip vertices)
  | .mk id name direction collection nested, differ, done => by
      obtain ⟨field, target, vertex, graph, required, leads, fetched, rest⟩ :=
        mergeFetch_eq_ok.mp done
      have loaded := Loads.of_fetchVertex forest older fetched
      have answers := Answers.of_fetchVertex forest older required leads fetched
      have below := loadsUnder_mergeFetches loaded.forest loaded.hangs.lt_size nested rest
      obtain ⟨vertices, lodges, declared⟩ := exists_lodges_mergeFetches loaded.forest
        loaded.hangs.lt_size nested differ.1 differ.2 rest
      have apart : ¬ (graph.setFetched vertex).Under parent vertex := fun under =>
        Nat.not_le.mpr (loaded.forest.older loaded.hangs) (Under.le loaded.forest under)
      exact ⟨vertex :: vertices, .mk (below.answers loaded.forest apart answers) lodges, declared⟩

theorem exists_lodges_mergeFetches
    {parent : VertexId}
    {before after : GraphState}
    (forest : before.graph.Forest)
    (older : parent.index < before.graph.size) :
    (fetches : List FetchTree) -> (fetches.map FetchTree.field).Nodup ->
      FetchTree.SiblingsDiffer.all fetches ->
      mergeFetches schema parent fetches before = .ok () after ->
      ∃ vertices, after.graph.LodgesAll schema parent fetches vertices ∧
        after.declared = before.declared.insertAll
          ((FetchTree.ids.nestedIds fetches).zip vertices)
  | [], _, _, done => by
      cases done
      exact ⟨[], .nil, rfl⟩
  | fetch :: fetches, nodup, differ, done => by
      obtain ⟨⟨⟩, between, first, rest⟩ := Operation.bind_eq_ok.mp done
      obtain ⟨new, nodupRest⟩ := List.nodup_cons.mp nodup
      have here := loadsUnder_mergeFetch forest older fetch first
      have isForest := here.forest forest
      have stillOlder := here.evolves.lt_size older
      obtain ⟨vertices, lodges, declared⟩ :=
        exists_lodges_mergeFetch forest older fetch differ.1 first
      obtain ⟨others, lodgesRest, declaredRest⟩ :=
        exists_lodges_mergeFetches isForest stillOlder fetches nodupRest differ.2 rest
      have apart : ∀ other ∈ fetches, fetch.field ≠ other.field := fun other member same =>
        new (same ▸ List.mem_map_of_mem member)
      refine ⟨vertices ++ others,
        .cons (lodges_of_mergeFetches isForest stillOlder apart rest lodges) lodgesRest, ?_⟩
      rw [declaredRest, declared, FetchTree.ids.nestedIds,
        List.zip_append (lodges.length_eq fetch), DeclarationMap.insertAll_append]

end

/-- An upright graph absorbs a second fetch that declares what was just merged. -/
theorem mergeFetch_copy
    {fetch copy : FetchTree}
    (upright : before.graph.Upright)
    (older : parent.index < before.graph.size)
    (differ : fetch.SiblingsDiffer)
    (copies : fetch.Copies copy)
    (done : mergeFetch schema parent fetch before = .ok () after) :
    ∃ later vertices, mergeFetch schema parent copy after = .ok () later ∧
      later.graph = after.graph ∧
      fetch.ids.length = vertices.length ∧ copy.ids.length = vertices.length ∧
      after.declared = before.declared.insertAll (fetch.ids.zip vertices) ∧
      later.declared = after.declared.insertAll (copy.ids.zip vertices) ∧
      (fetch.ids.Nodup -> copy.ids.Nodup ->
        List.Forall₂ (fun id other => ∃ vertex, after.declared.find? id = some vertex ∧
          later.declared.find? other = some vertex) fetch.ids copy.ids) := by
  have merged : before.graph.Strokes (finalState (mergeFetch schema parent fetch before)).graph :=
    strokes_mergeFetch before older fetch
  rw [done] at merged
  obtain ⟨vertices, lodges, declared⟩ :=
    exists_lodges_mergeFetch upright.forest older fetch differ done
  have copyLodges := lodges.copy fetch copy copies
  have again := mergeFetch_of_lodges (upright.strokes merged) after.declared copy copyLodges
  refine ⟨_, vertices, again, rfl, lodges.length_eq fetch, copyLodges.length_eq copy, declared, rfl,
    fun nodup copyNodup => ?_⟩
  rw [declared]
  exact forall₂_of_common
    (DeclarationMap.find?_insertAll_zip nodup (lodges.length_eq fetch))
    (DeclarationMap.find?_insertAll_zip copyNodup (copyLodges.length_eq copy))

/-- A fetch that was merged below a vertex is absorbed: a second one that declares the same is
merged without a change of the graph, and each of its fetches is given the vertex of the fetch that
it copies. This holds of every graph that was reached from roots, and of fetches of any depth,
as long as no two fetches of one list are of the same relation. -/
theorem mergeFetch_again
    {start : JoinGraph}
    {fetch copy : FetchTree}
    (roots : start.OnlyRoots)
    (reached : start.Runs before.graph)
    (older : parent.index < before.graph.size)
    (differ : fetch.SiblingsDiffer)
    (copies : fetch.Copies copy)
    (done : mergeFetch schema parent fetch before = .ok () after) :
    ∃ later vertices, mergeFetch schema parent copy after = .ok () later ∧
      later.graph = after.graph ∧
      fetch.ids.length = vertices.length ∧ copy.ids.length = vertices.length ∧
      after.declared = before.declared.insertAll (fetch.ids.zip vertices) ∧
      later.declared = after.declared.insertAll (copy.ids.zip vertices) ∧
      (fetch.ids.Nodup -> copy.ids.Nodup ->
        List.Forall₂ (fun id other => ∃ vertex, after.declared.find? id = some vertex ∧
          later.declared.find? other = some vertex) fetch.ids copy.ids) :=
  mergeFetch_copy (roots.upright.strokes reached.strokes) older differ copies done

/-- Employees in teams, and teams with members. -/
def crewTeams : Schema :=
  ⟨⟨[("Employee", .ofFields "Employee" [.relation "team" "Team" .manyToOne true]),
    ("Team", .ofFields "Team" [.relation "members" "Employee" .oneToMany true])]⟩⟩

/-- A fetch of the team of an employee and of its members. -/
def teamFetch (team members : NodeId) : FetchTree :=
  .mk team "team" .inner .all [.mk members "members" .left .all []]

/-- The team that is joined already is fetched twice: it becomes an inner one the first time, and
its members are loaded once. -/
theorem teamFetch_again :
    crewRoot.OnlyRoots ∧ crewRoot.Runs crewJoined ∧
      (teamFetch ⟨3⟩ ⟨4⟩).SiblingsDiffer ∧ (teamFetch ⟨3⟩ ⟨4⟩).Copies (teamFetch ⟨5⟩ ⟨6⟩) ∧
      ∃ after later,
        mergeFetch crewTeams ⟨0⟩ (teamFetch ⟨3⟩ ⟨4⟩) { graph := crewJoined } = .ok () after ∧
        after.graph.size = 3 ∧
        mergeFetch crewTeams ⟨0⟩ (teamFetch ⟨5⟩ ⟨6⟩) after = .ok () later ∧
        later.graph = after.graph ∧
        List.Forall₂ (fun id other => ∃ vertex, after.declared.find? id = some vertex ∧
          later.declared.find? other = some vertex) [⟨3⟩, ⟨4⟩] [⟨5⟩, ⟨6⟩] := by
  have begun : crewRoot.Runs crewJoined := .single (.request (by decide) _)
  have differ : (teamFetch ⟨3⟩ ⟨4⟩).SiblingsDiffer :=
    ⟨by decide, ⟨by decide, trivial⟩, trivial⟩
  have copies : (teamFetch ⟨3⟩ ⟨4⟩).Copies (teamFetch ⟨5⟩ ⟨6⟩) :=
    ⟨rfl, rfl, rfl, ⟨rfl, rfl, rfl, trivial⟩, trivial⟩
  obtain ⟨after, done, size⟩ : ∃ after,
      mergeFetch crewTeams ⟨0⟩ (teamFetch ⟨3⟩ ⟨4⟩) { graph := crewJoined } = .ok () after ∧
        after.graph.size = 3 :=
    ⟨_, rfl, rfl⟩
  obtain ⟨later, vertices, again, same, -, -, -, -, alike⟩ :=
    mergeFetch_again onlyRoots_crewRoot begun (by decide) differ copies done
  exact ⟨onlyRoots_crewRoot, begun, differ, copies, after, later, done, size, again, same,
    alike (by decide) (by decide)⟩

end Graphing
end QueryGraph
