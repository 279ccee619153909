import QueryGraph.Proofs.Graph.Evolution
import QueryGraph.Proofs.Tree.Rosters

/-!
# Where fetches lead

A fetch is declared on a source or on another fetch, and its vertex hangs off the vertex of that.
What is fetched below a source is merged with it at every depth, so nothing declared is left out.
-/

namespace QueryGraph

/-! ## What is fetched below a source -/

namespace Tree

variable {tree : Tree} {child parent : NodeId}

theorem FetchedOn.parent_eq
    {body : Fetch}
    (on : tree.FetchedOn child parent)
    (found : tree.node? child = some (.fetch body)) :
    body.parent = parent := by
  obtain ⟨⟨-, node, present, owner⟩, -⟩ := on
  rw [found] at present
  cases present
  exact Option.some.inj owner

/-- A node lists the fetches that are declared on it. -/
theorem Rostered.mem_fetches
    {node : Node}
    (rostered : tree.Rostered)
    (on : tree.FetchedOn child parent)
    (found : tree.node? parent = some node) :
    child ∈ node.roster .fetches := by
  obtain ⟨body, present⟩ := on.2
  rw [rostered.roster_eq parent node found]
  refine List.mem_filter.mpr ⟨mem_ids.mpr (lt_size_of_node? present), ?_⟩
  rw [isEnrolled_of_some present, ← on.parent_eq present]
  exact decide_eq_true rfl

end Tree

namespace FetchTree

variable {tree : Tree} {child parent : NodeId}

/-- Fetches that were read from a list are those of the list. -/
theorem mem_nestedIds_of_mem
    {fuel : Nat}
    {ids : List NodeId}
    {fetches : List FetchTree}
    (read : ids.mapM (ofNode tree fuel) = .ok fetches)
    (member : child ∈ ids) :
    child ∈ FetchTree.ids.nestedIds fetches := by
  rw [← Operation.map_of_mapM read id_of_ofNode] at member
  obtain ⟨fetch, fetchMember, rfl⟩ := List.mem_map.mp member
  refine mem_nestedIds.mpr ⟨fetch, fetchMember, ?_⟩
  cases fetch
  exact List.mem_cons_self

mutual

/-- What is fetched on a fetch that was read was read with it. -/
theorem mem_ids_of_fetchedOn
    (rostered : tree.Rostered)
    (on : tree.FetchedOn child parent) :
    (fetch : FetchTree) -> fetch.ReadFrom tree -> parent ∈ fetch.ids -> child ∈ fetch.ids
  | .mk id field direction collection nested, read, member => by
      obtain ⟨fuel, found⟩ := read
      cases fuel with
      | zero => cases found
      | succ fuel =>
          obtain ⟨body, again, present, nestedRead, same⟩ := ofNode_succ_eq_ok.mp found
          cases same
          refine List.mem_cons_of_mem _ ?_
          rcases List.mem_cons.mp member with rfl | below
          · exact mem_nestedIds_of_mem nestedRead (rostered.mem_fetches on present)
          · refine mem_nestedIds_of_fetchedOn rostered on nested (fun fetch fetchMember => ?_) below
            obtain ⟨listed, -, fetchRead⟩ := Operation.exists_of_mem_mapM nestedRead fetchMember
            exact ⟨fuel, by rwa [id_of_ofNode fetchRead]⟩

theorem mem_nestedIds_of_fetchedOn
    (rostered : tree.Rostered)
    (on : tree.FetchedOn child parent) :
    (fetches : List FetchTree) -> (∀ fetch ∈ fetches, fetch.ReadFrom tree) ->
      parent ∈ FetchTree.ids.nestedIds fetches -> child ∈ FetchTree.ids.nestedIds fetches
  | [], _, member => by cases member
  | fetch :: fetches, read, member => by
      rcases List.mem_append.mp member with here | later
      · exact List.mem_append_left _
          (mem_ids_of_fetchedOn rostered on fetch (read fetch List.mem_cons_self) here)
      · exact List.mem_append_right _ (mem_nestedIds_of_fetchedOn rostered on fetches
          (fun other otherMember => read other (List.mem_cons_of_mem _ otherMember)) later)

end

/-- All that is fetched below a source is read with its fetches. -/
theorem mem_nestedIds_of_fetchedBelow
    {source fetch : NodeId}
    {body : Fetch}
    {fetches : List FetchTree}
    (rostered : tree.Rostered)
    (read : tree.fetchTrees source = .ok fetches)
    (below : tree.FetchedBelow fetch source)
    (isFetch : tree.node? fetch = some (.fetch body)) :
    fetch ∈ FetchTree.ids.nestedIds fetches := by
  obtain ⟨sourceBody, found, fetchesRead⟩ := Tree.fetchTrees_eq_ok.mp read
  have reads : ∀ other ∈ fetches, other.ReadFrom tree := by
    intro other member
    obtain ⟨id, -, otherRead⟩ := Operation.exists_of_mem_mapM fetchesRead member
    exact ⟨tree.size + 1, by rwa [id_of_ofNode otherRead]⟩
  have met : fetch = source ∨ fetch ∈ FetchTree.ids.nestedIds fetches := by
    clear isFetch
    induction below using Relation.ReflTransGen.head_induction_on with
    | refl => exact Or.inl rfl
    | head on _ inductionHypothesis =>
        rcases inductionHypothesis with rfl | member
        · exact Or.inr (mem_nestedIds_of_mem fetchesRead (rostered.mem_fetches on found))
        · exact Or.inr (mem_nestedIds_of_fetchedOn rostered on fetches reads member)
  rcases met with rfl | member
  · rw [found] at isFetch
    cases isFetch
  · exact member

end FetchTree

/-! ## Vertices of fetches -/

namespace GraphState

variable {schema : Schema} {tree : Tree} {before after : GraphState}

theorem FetchStep.step
    (step : before.FetchStep schema tree after) :
    ∃ event, before.graph.Step event after.graph := by
  obtain @⟨id, declared, parent, vertex, field, target, graph, -, -, older, required, -, fetched⟩ :=
    step
  exact ⟨.granted (.fetch id declared) parent vertex,
    .of_fetchVertex older (Schema.name_of_requireField required) fetched⟩

theorem FetchStep.evolves
    (step : before.FetchStep schema tree after) :
    before.graph.Evolves after.graph := by
  obtain @⟨id, declared, parent, vertex, field, target, graph, -, -, older, -, -, fetched⟩ := step
  have found := JoinGraph.strokes_fetchVertex older field target declared.direction
    declared.collection
  rw [fetched] at found
  exact JoinGraph.Strokes.evolves (found.tail (.load (JoinGraph.lt_size_of_fetchVertex fetched)))

theorem FetchStep.keeps
    (step : before.FetchStep schema tree after) :
    before.declared.Extends after.declared := by
  obtain ⟨-, fresh, -, -, -, -⟩ := step
  exact DeclarationMap.extends_insert_of_not_mem _ fresh

namespace Fetches

theorem forest
    (fetches : before.Fetches schema tree after)
    (forest : before.graph.Forest) :
    after.graph.Forest := by
  induction fetches with
  | refl => exact forest
  | tail _ step inductionHypothesis =>
      obtain ⟨event, done⟩ := step.step
      exact (done.effect inductionHypothesis).forest

theorem evolves (fetches : before.Fetches schema tree after) :
    before.graph.Evolves after.graph := by
  induction fetches with
  | refl => exact .refl _
  | tail _ step inductionHypothesis => exact inductionHypothesis.trans step.evolves

theorem keeps (fetches : before.Fetches schema tree after) :
    before.declared.Extends after.declared := by
  induction fetches with
  | refl => exact fun _ _ found => found
  | tail _ step inductionHypothesis =>
      exact fun key vertex found => step.keeps key vertex (inductionHypothesis key vertex found)

end Fetches
end GraphState

/-- The vertex of a declared source or fetch. -/
inductive Tree.LeadsTo
    (tree : Tree)
    (sources fetches : DeclarationMap)
    (node : NodeId)
    (id : VertexId) : Prop
  | source
      {body : Source}
      (found : tree.node? node = some (.source body))
      (declared : sources.find? node = some id)
  | fetch
      {body : Fetch}
      (found : tree.node? node = some (.fetch body))
      (merged : fetches.find? node = some id)

/-- A fetch has a vertex, which hangs off that of the node it is declared on. -/
def Tree.Lodges
    (tree : Tree)
    (sources : DeclarationMap)
    (state : GraphState)
    (fetch : NodeId) : Prop :=
  ∃ declared id above, tree.fetch? fetch = some declared ∧
    state.declared.find? fetch = some id ∧
    tree.LeadsTo sources state.declared declared.parent above ∧ state.graph.HangsOff id above

theorem Tree.LeadsTo.extend
    {tree : Tree}
    {sources fetches later : DeclarationMap}
    {node : NodeId}
    {id : VertexId}
    (places : tree.LeadsTo sources fetches node id)
    (kept : fetches.Extends later) :
    tree.LeadsTo sources later node id := by
  cases places with
  | source found declared => exact .source found declared
  | fetch found merged => exact .fetch found (kept _ _ merged)

theorem Tree.Lodges.later
    {tree : Tree}
    {schema : Schema}
    {sources : DeclarationMap}
    {before after : GraphState}
    {fetch : NodeId}
    (lodges : tree.Lodges sources before fetch)
    (fetches : before.Fetches schema tree after) :
    tree.Lodges sources after fetch := by
  obtain ⟨declared, id, above, isFetch, found, places, hangs⟩ := lodges
  exact ⟨declared, id, above, isFetch, fetches.keeps _ _ found, places.extend fetches.keeps,
    fetches.evolves.hangsOff hangs⟩

namespace Graphing

variable {schema : Schema} {tree : Tree} {sources : DeclarationMap}

mutual

/-- A merged fetch has a vertex, and so have those below it. -/
theorem lodges_mergeFetch
    {parent : VertexId}
    {owner : NodeId}
    {before after : GraphState}
    (listed : tree.Listed)
    (forest : before.graph.Forest)
    (older : parent.index < before.graph.size)
    (places : tree.LeadsTo sources before.declared owner parent) :
    (fetch : FetchTree) -> fetch.ReadFrom tree -> tree.FetchedOn fetch.id owner ->
      (∀ key ∈ fetch.ids, key ∉ before.declared.keys) ->
      mergeFetch schema parent fetch before = .ok () after ->
      ∀ key ∈ fetch.ids, tree.Lodges sources after key
  | .mk id name direction collection nested, read, on, fresh, done, key, member => by
      obtain ⟨body, present, rfl, rfl, rfl, declared⟩ := FetchTree.readFrom_mk listed read
      obtain ⟨field, target, vertex, graph, required, leads, fetched, rest⟩ :=
        mergeFetch_eq_ok.mp done
      have isFetch : tree.fetch? id = some body := Tree.fetch?_eq_some.mpr present
      have new : id ∉ before.declared.keys := fresh id List.mem_cons_self
      have step : before.graph.Step (.granted (.fetch id body) parent vertex)
          (graph.setFetched vertex) :=
        .of_fetchVertex older (Schema.name_of_requireField required) fetched
      have effect := step.effect forest
      have reads : Reads tree id nested
          { graph := graph.setFetched vertex, declared := before.declared.insert id vertex } :=
        .below listed declared fun other below => fresh other (List.mem_cons_of_mem _ below)
      have declaredHere : (before.declared.insert id vertex).find? id = some vertex :=
        DeclarationMap.find?_insert_self _ _ _
      rcases List.mem_cons.mp member with rfl | below
      · have lodges : tree.Lodges sources
            { graph := graph.setFetched vertex, declared := before.declared.insert key vertex }
            key := by
          refine ⟨body, vertex, parent, isFetch, declaredHere, ?_,
            effect.edges.2.mpr (Or.inr ⟨rfl, rfl⟩)⟩
          rw [on.parent_eq present]
          exact places.extend (DeclarationMap.extends_insert_of_not_mem vertex new)
        exact lodges.later (fetches_mergeFetches listed effect.present nested reads rest)
      · exact lodges_mergeFetches listed effect.forest effect.present (.fetch present declaredHere)
          nested reads rest key below

theorem lodges_mergeFetches
    {parent : VertexId}
    {owner : NodeId}
    {before after : GraphState}
    (listed : tree.Listed)
    (forest : before.graph.Forest)
    (older : parent.index < before.graph.size)
    (places : tree.LeadsTo sources before.declared owner parent) :
    (fetches : List FetchTree) -> Reads tree owner fetches before ->
      mergeFetches schema parent fetches before = .ok () after ->
      ∀ key ∈ FetchTree.ids.nestedIds fetches, tree.Lodges sources after key
  | [], _, _, _, member => by cases member
  | fetch :: fetches, reads, done, key, member => by
      obtain ⟨⟨⟩, between, first, rest⟩ := Operation.bind_eq_ok.mp done
      obtain ⟨read, on⟩ := reads.declared.read fetch List.mem_cons_self
      have fresh : ∀ key ∈ fetch.ids, key ∉ before.declared.keys := fun other inside =>
        reads.fresh other (List.mem_append_left _ inside)
      have here := fetches_mergeFetch listed older fetch read fresh first
      have olderStill := here.evolves.lt_size older
      have readsRest := reads.next listed first
      rcases List.mem_append.mp member with inside | later
      · exact (lodges_mergeFetch listed forest older places fetch read on fresh first key
          inside).later (fetches_mergeFetches listed olderStill fetches readsRest rest)
      · exact lodges_mergeFetches listed (here.forest forest) olderStill
          (places.extend here.keeps) fetches readsRest rest key later

end

theorem lodges_forM
    {entries : List (NodeId × VertexId)}
    {before after : GraphState}
    (listed : tree.Listed)
    (rostered : tree.Rostered)
    (forest : before.graph.Forest)
    (awaits : Awaits tree entries before)
    (found : ∀ entry ∈ entries, sources.find? entry.1 = some entry.2)
    (done : (entries.forM fun entry => do
      let fetches ← require ((tree.fetchTrees entry.1).mapError CompileError.tree)
      mergeFetches schema entry.2 fetches) before = .ok () after) :
    ∀ entry ∈ entries, ∀ {fetch body}, tree.node? fetch = some (.fetch body) ->
      tree.FetchedBelow fetch entry.1 -> tree.Lodges sources after fetch := by
  induction entries generalizing before with
  | nil =>
      intro entry member
      cases member
  | cons first entries inductionHypothesis =>
      obtain ⟨source, vertex⟩ := first
      obtain ⟨between, merging, rest⟩ := Operation.forM_cons_eq_ok.mp done
      obtain ⟨fetches, current, required, merged⟩ := Operation.bind_eq_ok.mp merging
      obtain ⟨mapped, rfl⟩ := require_eq_ok.mp required
      have read := Operation.mapError_eq_ok.mp mapped
      obtain ⟨body, present, -⟩ := Tree.fetchTrees_eq_ok.mp read
      have reads := awaits.reads listed read
      have older := awaits.present _ List.mem_cons_self
      have here := fetches_mergeFetches listed older fetches reads merged
      have awaitsRest := awaits.next listed read merged
      intro entry member fetch fetchBody isFetch below
      rcases List.mem_cons.mp member with rfl | later
      · have leads : tree.LeadsTo sources current.declared source vertex :=
          .source present (found _ List.mem_cons_self)
        have inside := FetchTree.mem_nestedIds_of_fetchedBelow rostered read below isFetch
        exact (lodges_mergeFetches listed forest older leads fetches reads merged fetch
          inside).later (fetches_forM listed awaitsRest rest)
      · exact inductionHypothesis (here.forest forest) awaitsRest
          (fun other otherMember => found other (List.mem_cons_of_mem _ otherMember)) rest entry
          later isFetch below

/-- Only what is fetched below the sources is merged. -/
theorem fetchedBelow_of_forM
    {entries : List (NodeId × VertexId)}
    {before after : GraphState}
    {key : NodeId}
    (listed : tree.Listed)
    (awaits : Awaits tree entries before)
    (done : (entries.forM fun entry => do
      let fetches ← require ((tree.fetchTrees entry.1).mapError CompileError.tree)
      mergeFetches schema entry.2 fetches) before = .ok () after)
    (known : key ∈ after.declared.keys) :
    key ∈ before.declared.keys ∨ ∃ entry ∈ entries, tree.FetchedBelow key entry.1 := by
  induction entries generalizing before with
  | nil =>
      cases done
      exact Or.inl known
  | cons first entries inductionHypothesis =>
      obtain ⟨source, vertex⟩ := first
      obtain ⟨between, merging, rest⟩ := Operation.forM_cons_eq_ok.mp done
      obtain ⟨fetches, current, required, merged⟩ := Operation.bind_eq_ok.mp merging
      obtain ⟨mapped, rfl⟩ := require_eq_ok.mp required
      have read := Operation.mapError_eq_ok.mp mapped
      rcases inductionHypothesis (awaits.next listed read merged) rest with old | later
      · rcases (mem_keys_mergeFetches fetches merged).mp old with older | inside
        · exact Or.inl older
        · have reads := awaits.reads listed read
          exact Or.inr ⟨_, List.mem_cons_self,
            FetchTree.fetchedBelow_of_mem_nestedIds listed fetches reads.declared inside⟩
      · obtain ⟨entry, member, below⟩ := later
        exact Or.inr ⟨entry, List.mem_cons_of_mem _ member, below⟩

section Merged

variable {start : JoinGraph} {after : GraphState} (listed : tree.Listed)
  (nodup : sources.keys.Nodup)
  (present : ∀ entry ∈ sources.entries, entry.2.index < start.size)
  (done : mergeAllFetches schema tree sources { graph := start } = .ok () after)

include listed nodup present done

/-- Everything that is fetched below a declared source has a vertex. -/
theorem lodges_mergeAllFetches
    {source fetch : NodeId}
    {body : Fetch}
    (faithful : sources.Faithful)
    (rostered : tree.Rostered)
    (forest : start.Forest)
    (declared : source ∈ sources.keys)
    (isFetch : tree.node? fetch = some (.fetch body))
    (below : tree.FetchedBelow fetch source) :
    tree.Lodges sources after fetch := by
  obtain ⟨entry, member, rfl⟩ := List.mem_map.mp declared
  exact lodges_forM listed rostered forest (awaits_start nodup present)
    (fun other otherMember => faithful _ _ otherMember) done entry member isFetch below

theorem fetchedBelow_mergeAllFetches
    {key : NodeId}
    (known : key ∈ after.declared.keys) :
    ∃ source ∈ sources.keys, tree.FetchedBelow key source := by
  rcases fetchedBelow_of_forM listed (awaits_start nodup present) done known with none | met
  · cases none
  · obtain ⟨entry, member, below⟩ := met
    exact ⟨entry.1, List.mem_map_of_mem member, below⟩

end Merged

end Graphing
end QueryGraph
