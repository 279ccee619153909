import QueryGraph.Proofs.Graph.Recount
import QueryGraph.Proofs.Path.Type

/-!
# The history of merging fetches

Merging the fetches of the declared sources takes one step for every declared fetch: the fetch
is given a vertex below that of its parent, which it marks. A fetch belongs to one source, so
none is merged twice. What a step keeps therefore holds of the merged graph.
-/

namespace QueryGraph

namespace JoinGraph.Grows

variable {before after : JoinGraph}

theorem lt_size
    {id : VertexId}
    (grows : before.Grows after)
    (present : id.index < before.size) :
    id.index < after.size := by
  obtain ⟨vertex, found⟩ := vertex?_of_lt present
  obtain ⟨later, laterFound, -⟩ := grows id vertex found
  exact lt_size_of_vertex? laterFound

theorem size_le (grows : before.Grows after) : before.size ≤ after.size := by
  by_contra smaller
  have present : (VertexId.mk after.size).index < before.size := by simpa using smaller
  exact Nat.lt_irrefl _ (grows.lt_size present)

end JoinGraph.Grows

/-- The step of fetching through a vertex. -/
theorem JoinGraph.Step.of_fetchVertex
    {before graph : JoinGraph}
    {fetch : NodeId}
    {declared : Fetch}
    {parent vertex : VertexId}
    {field : Field}
    {target : String}
    (older : parent.index < before.size)
    (name : field.name = declared.field)
    (fetched : before.fetchVertex parent field target declared.direction declared.collection =
      (vertex, graph)) :
    before.Step (.granted (.fetch fetch declared) parent vertex) (graph.setFetched vertex) := by
  have step : before.Step (.granted (.fetch fetch declared) parent _) _ :=
    .fetch target older name
  rwa [fetched] at step

theorem Schema.name_of_requireField
    {schema : Schema}
    {recordType name : String}
    {field : Field}
    (found : schema.requireField recordType name = .ok field) :
    field.name = name := by
  obtain ⟨declared, -, fieldFound⟩ := Option.bind_eq_some_iff.mp (requireField_eq_ok.mp found)
  exact (RecordType.mem_of_field? fieldFound).2

/-- A fetch is given a vertex that exists. -/
theorem JoinGraph.lt_size_of_fetchVertex
    {before graph : JoinGraph}
    {parent vertex : VertexId}
    {field : Field}
    {target : String}
    {direction : JoinDirection}
    {collection : CollectionFetch}
    (fetched : before.fetchVertex parent field target direction collection = (vertex, graph)) :
    vertex.index < graph.size := by
  unfold fetchVertex at fetched
  simp only at fetched
  split at fetched
  · next existing reusable =>
      cases fetched
      have fetchable := List.find?_some reusable
      rw [size_modify]
      cases found : before.vertex? vertex with
      | none =>
          rw [found] at fetchable
          cases fetchable
      | some body => exact lt_size_of_vertex? found
  · cases fetched
    simp [size, modify]

/-- A declared fetch, not merged before, is given a vertex below another one. -/
inductive GraphState.FetchStep
    (schema : Schema)
    (tree : Tree)
    (before : GraphState) : GraphState -> Prop
  | fetch
      {id : NodeId}
      {declared : Fetch}
      {parent vertex : VertexId}
      {field : Field}
      {target : String}
      {graph : JoinGraph}
      (isFetch : tree.fetch? id = some declared)
      (fresh : id ∉ before.declared.keys)
      (older : parent.index < before.graph.size)
      (required : schema.requireField (Graphing.typeOf before.graph parent) declared.field =
        .ok field)
      (leads : field.target? = some target)
      (fetched : before.graph.fetchVertex parent field target declared.direction
        declared.collection = (vertex, graph)) :
      FetchStep schema tree before
        { graph := graph.setFetched vertex, declared := before.declared.insert id vertex }

/-- Declared fetches are given vertices one after the other. -/
def GraphState.Fetches
    (schema : Schema)
    (tree : Tree) : GraphState -> GraphState -> Prop :=
  Relation.ReflTransGen (GraphState.FetchStep schema tree)

/-- What a fetch declares depends on the nodes of a tree alone. -/
theorem GraphState.Fetches.of_nodes
    {schema : Schema}
    {tree other : Tree}
    {before after : GraphState}
    (fetches : before.Fetches schema tree after)
    (nodes : tree.nodes = other.nodes) :
    before.Fetches schema other after := by
  have fetch? : ∀ id, tree.fetch? id = other.fetch? id := by
    intro id
    unfold Tree.fetch?
    rw [Tree.node?_eq_of_nodes nodes]
  refine Relation.ReflTransGen.mono ?_ _ _ fetches
  rintro _ _ ⟨isFetch, fresh, older, required, leads, fetched⟩
  exact .fetch (by rwa [← fetch?]) fresh older required leads fetched

/-- A history tells the fetches that were declared since a graph. -/
structure GraphState.TellsFetches
    (start : JoinGraph)
    (tree : Tree)
    (history : List GraphEvent)
    (state : GraphState) : Prop where
  steps : start.Steps history state.graph
  declaredBy : ∀ {event}, event ∈ history -> ∃ fetch declared parent id,
    event = .granted (.fetch fetch declared) parent id ∧ tree.fetch? fetch = some declared ∧
      state.declared.find? fetch = some id
  granted : ∀ {fetch declared id}, tree.fetch? fetch = some declared ->
    state.declared.find? fetch = some id ->
      ∃ parent, GraphEvent.granted (.fetch fetch declared) parent id ∈ history

namespace GraphState.TellsFetches

variable {start : JoinGraph} {tree : Tree} {history : List GraphEvent} {state : GraphState}

theorem refl
    (start : JoinGraph)
    (tree : Tree) :
    TellsFetches start tree [] { graph := start } where
  steps := .none
  declaredBy member := by cases member
  granted _ found := by cases found

/-- A fetch that was not declared yet is declared with its event. -/
theorem declare
    {fetch : NodeId}
    {declared : Fetch}
    {parent id : VertexId}
    {graph : JoinGraph}
    (tells : state.TellsFetches start tree history)
    (isFetch : tree.fetch? fetch = some declared)
    (fresh : fetch ∉ state.declared.keys)
    (step : state.graph.Step (.granted (.fetch fetch declared) parent id) graph) :
    TellsFetches start tree (.granted (.fetch fetch declared) parent id :: history)
      { graph := graph, declared := state.declared.insert fetch id } where
  steps := .next tells.steps step
  declaredBy {event} member := by
    have kept := DeclarationMap.extends_insert_of_not_mem id fresh
    rcases List.mem_cons.mp member with rfl | earlier
    · exact ⟨fetch, declared, parent, id, rfl, isFetch, DeclarationMap.find?_insert_self _ _ _⟩
    · obtain ⟨other, otherDeclared, above, place, rfl, otherIs, found⟩ := tells.declaredBy earlier
      exact ⟨other, otherDeclared, above, place, rfl, otherIs, kept _ _ found⟩
  granted {other otherDeclared place} otherIs found := by
    rcases DeclarationMap.inserted_or_found found with ⟨rfl, rfl⟩ | earlier
    · rw [isFetch] at otherIs
      cases otherIs
      exact ⟨parent, List.mem_cons_self⟩
    · obtain ⟨above, member⟩ := tells.granted otherIs earlier
      exact ⟨above, List.mem_cons_of_mem _ member⟩

/-- A step tells its own event. -/
theorem step
    {schema : Schema}
    {after : GraphState}
    (tells : state.TellsFetches start tree history)
    (step : state.FetchStep schema tree after) :
    ∃ event, after.TellsFetches start tree (event :: history) := by
  obtain ⟨isFetch, fresh, older, required, -, fetched⟩ := step
  exact ⟨_, tells.declare isFetch fresh
    (.of_fetchVertex older (Schema.name_of_requireField required) fetched)⟩

end GraphState.TellsFetches

/-- Every fetch that was given a vertex is told. -/
theorem GraphState.Fetches.tells
    {schema : Schema}
    {start : JoinGraph}
    {tree : Tree}
    {after : GraphState}
    (fetches : GraphState.Fetches schema tree { graph := start } after) :
    ∃ history, after.TellsFetches start tree history := by
  induction fetches with
  | refl => exact ⟨[], .refl start tree⟩
  | tail _ step inductionHypothesis =>
      obtain ⟨history, tells⟩ := inductionHypothesis
      obtain ⟨event, told⟩ := tells.step step
      exact ⟨event :: history, told⟩

namespace Graphing

variable {schema : Schema} {tree : Tree} {start : JoinGraph}

mutual

/-- Merging a fetch declares it with the fetches below it, and nothing else. -/
theorem mem_keys_mergeFetch
    {parent : VertexId}
    {before after : GraphState}
    {key : NodeId} :
    (fetch : FetchTree) -> mergeFetch schema parent fetch before = .ok () after ->
      (key ∈ after.declared.keys ↔ key ∈ before.declared.keys ∨ key ∈ fetch.ids)
  | .mk id name direction collection nested, done => by
      obtain ⟨field, target, vertex, graph, -, -, -, rest⟩ := mergeFetch_eq_ok.mp done
      rw [mem_keys_mergeFetches nested rest, DeclarationMap.mem_keys_insert, FetchTree.ids,
        List.mem_cons, or_assoc]
      exact or_left_comm

theorem mem_keys_mergeFetches
    {parent : VertexId}
    {before after : GraphState}
    {key : NodeId} :
    (fetches : List FetchTree) -> mergeFetches schema parent fetches before = .ok () after ->
      (key ∈ after.declared.keys ↔
        key ∈ before.declared.keys ∨ key ∈ FetchTree.ids.nestedIds fetches)
  | [], done => by
      cases done
      simp [FetchTree.ids.nestedIds]
  | fetch :: fetches, done => by
      obtain ⟨⟨⟩, between, first, rest⟩ := Operation.bind_eq_ok.mp done
      rw [mem_keys_mergeFetches fetches rest, mem_keys_mergeFetch fetch first,
        FetchTree.ids.nestedIds, List.mem_append, or_assoc]

end

/-- The fetches of a node, as they are read off a tree to be merged. -/
structure Reads
    (tree : Tree)
    (owner : NodeId)
    (fetches : List FetchTree)
    (state : GraphState) : Prop where
  declared : FetchTree.Declared tree owner fetches
  fresh : ∀ key ∈ FetchTree.ids.nestedIds fetches, key ∉ state.declared.keys

/-- The fetches below one that is declared are still to be merged. -/
theorem Reads.below
    {id : NodeId}
    {vertex : VertexId}
    {nested : List FetchTree}
    {graph : JoinGraph}
    {map : DeclarationMap}
    (listed : tree.Listed)
    (declared : FetchTree.Declared tree id nested)
    (fresh : ∀ key ∈ FetchTree.ids.nestedIds nested, key ∉ map.keys) :
    Reads tree id nested { graph := graph, declared := map.insert id vertex } where
  declared := declared
  fresh key member known := by
    rcases DeclarationMap.mem_keys_insert.mp known with rfl | old
    · exact declared.id_not_mem listed member
    · exact fresh key member old

/-- The siblings of a fetch that is merged are still to be merged. -/
theorem Reads.next
    {parent : VertexId}
    {owner : NodeId}
    {fetch : FetchTree}
    {fetches : List FetchTree}
    {before after : GraphState}
    (reads : Reads tree owner (fetch :: fetches) before)
    (listed : tree.Listed)
    (merged : mergeFetch schema parent fetch before = .ok () after) :
    Reads tree owner fetches after where
  declared := reads.declared.tail
  fresh key member known := by
    rcases (mem_keys_mergeFetch fetch merged).mp known with old | here
    · exact reads.fresh key (List.mem_append_right _ member) old
    · exact reads.declared.not_mem_nestedIds listed here member

mutual

/-- A fetch that was not declared yet is given a vertex, and so are those below it. -/
theorem fetches_mergeFetch
    {parent : VertexId}
    {before after : GraphState}
    (listed : tree.Listed)
    (older : parent.index < before.graph.size) :
    (fetch : FetchTree) -> fetch.ReadFrom tree ->
      (∀ key ∈ fetch.ids, key ∉ before.declared.keys) ->
      mergeFetch schema parent fetch before = .ok () after ->
      before.Fetches schema tree after
  | .mk id name direction collection nested, read, fresh, done => by
      obtain ⟨body, present, rfl, rfl, rfl, declared⟩ := FetchTree.readFrom_mk listed read
      obtain ⟨field, target, vertex, graph, required, leads, fetched, rest⟩ :=
        mergeFetch_eq_ok.mp done
      have step : before.FetchStep schema tree
          { graph := graph.setFetched vertex, declared := before.declared.insert id vertex } :=
        .fetch (Tree.fetch?_eq_some.mpr present) (fresh id List.mem_cons_self) older required leads
          fetched
      have olderBelow : vertex.index < (graph.setFetched vertex).size :=
        (JoinGraph.retouched_setFetched graph vertex).grows.lt_size
          (JoinGraph.lt_size_of_fetchVertex fetched)
      exact .head step (fetches_mergeFetches listed olderBelow nested
        (.below listed declared fun key member => fresh key (List.mem_cons_of_mem _ member)) rest)

theorem fetches_mergeFetches
    {parent : VertexId}
    {owner : NodeId}
    {before after : GraphState}
    (listed : tree.Listed)
    (older : parent.index < before.graph.size) :
    (fetches : List FetchTree) -> Reads tree owner fetches before ->
      mergeFetches schema parent fetches before = .ok () after ->
      before.Fetches schema tree after
  | [], _, done => by
      cases done
      exact .refl
  | fetch :: fetches, reads, done => by
      obtain ⟨⟨⟩, between, first, rest⟩ := Operation.bind_eq_ok.mp done
      have here := fetches_mergeFetch listed older fetch
        (reads.declared.read fetch List.mem_cons_self).1
        (fun key member => reads.fresh key (List.mem_append_left _ member)) first
      exact here.trans (fetches_mergeFetches listed ((grows_mergeFetch fetch first).lt_size older)
        fetches (reads.next listed first) rest)

end

/-- The fetches of some sources are still to be merged, and none of them is yet. -/
structure Awaits
    (tree : Tree)
    (entries : List (NodeId × VertexId))
    (state : GraphState) : Prop where
  nodup : (entries.map Prod.fst).Nodup
  present : ∀ entry ∈ entries, entry.2.index < state.graph.size
  fresh : ∀ entry ∈ entries, ∀ {body}, tree.node? entry.1 = some (.source body) ->
    ∀ key ∈ state.declared.keys, ¬ tree.FetchedBelow key entry.1

theorem Awaits.reads
    {source : NodeId}
    {vertex : VertexId}
    {entries : List (NodeId × VertexId)}
    {fetches : List FetchTree}
    {before : GraphState}
    (awaits : Awaits tree ((source, vertex) :: entries) before)
    (listed : tree.Listed)
    (read : tree.fetchTrees source = .ok fetches) :
    Reads tree source fetches before := by
  obtain ⟨body, found, fetchesFound⟩ := Tree.fetchTrees_eq_ok.mp read
  have lists := listed source _ found
  have declared : FetchTree.Declared tree source fetches :=
    FetchTree.declared_of_mapM fetchesFound (List.nodup_append.mp lists.nodup).1
      fun _ member => lists.declared (List.mem_append_left _ member)
  exact ⟨declared, fun key member known => awaits.fresh _ List.mem_cons_self found key known
    (FetchTree.fetchedBelow_of_mem_nestedIds listed fetches declared member)⟩

/-- The fetches of different sources are different, so the others are still to be merged. -/
theorem Awaits.next
    {source : NodeId}
    {vertex : VertexId}
    {entries : List (NodeId × VertexId)}
    {fetches : List FetchTree}
    {before after : GraphState}
    (awaits : Awaits tree ((source, vertex) :: entries) before)
    (listed : tree.Listed)
    (read : tree.fetchTrees source = .ok fetches)
    (merged : mergeFetches schema vertex fetches before = .ok () after) :
    Awaits tree entries after := by
  obtain ⟨body, found, -⟩ := Tree.fetchTrees_eq_ok.mp read
  have reads := awaits.reads listed read
  obtain ⟨new, nodupRest⟩ := List.nodup_cons.mp awaits.nodup
  refine ⟨nodupRest, fun other member => ?_, ?_⟩
  · exact (grows_mergeFetches fetches merged).lt_size
      (awaits.present other (List.mem_cons_of_mem _ member))
  · intro other member otherBody otherFound key known belowOther
    rcases (mem_keys_mergeFetches fetches merged).mp known with old | here
    · exact awaits.fresh other (List.mem_cons_of_mem _ member) otherFound key old belowOther
    · have below := FetchTree.fetchedBelow_of_mem_nestedIds listed fetches reads.declared here
      have same := below.source_eq belowOther found otherFound
      refine new ?_
      change source ∈ _
      rw [same]
      exact List.mem_map_of_mem member

/-- Each of the fetches to be merged is given one vertex. -/
theorem fetches_forM
    {entries : List (NodeId × VertexId)}
    {before after : GraphState}
    (listed : tree.Listed)
    (awaits : Awaits tree entries before)
    (done : (entries.forM fun entry => do
      let fetches ← require ((tree.fetchTrees entry.1).mapError CompileError.tree)
      mergeFetches schema entry.2 fetches) before = .ok () after) :
    before.Fetches schema tree after := by
  induction entries generalizing before with
  | nil =>
      cases done
      exact .refl
  | cons entry entries inductionHypothesis =>
      obtain ⟨source, vertex⟩ := entry
      obtain ⟨between, first, rest⟩ := Operation.forM_cons_eq_ok.mp done
      obtain ⟨fetches, current, required, merged⟩ := Operation.bind_eq_ok.mp first
      obtain ⟨read, rfl⟩ := require_eq_ok.mp required
      have found := Operation.mapError_eq_ok.mp read
      have here := fetches_mergeFetches listed (awaits.present _ List.mem_cons_self) fetches
        (awaits.reads listed found) merged
      exact here.trans (inductionHypothesis (awaits.next listed found merged) rest)

theorem awaits_start
    {sources : DeclarationMap}
    (nodup : sources.keys.Nodup)
    (present : ∀ entry ∈ sources.entries, entry.2.index < start.size) :
    Awaits tree sources.entries { graph := start } where
  nodup := nodup
  present := present
  fresh _ _ _ _ _ known := by cases known

/-- Every declared fetch of the declared sources is given a vertex. -/
theorem fetches_mergeAllFetches
    {sources : DeclarationMap}
    {after : GraphState}
    (listed : tree.Listed)
    (nodup : sources.keys.Nodup)
    (present : ∀ entry ∈ sources.entries, entry.2.index < start.size)
    (done : mergeAllFetches schema tree sources { graph := start } = .ok () after) :
    GraphState.Fetches schema tree { graph := start } after :=
  fetches_forM listed (awaits_start nodup present) done

end Graphing
end QueryGraph
