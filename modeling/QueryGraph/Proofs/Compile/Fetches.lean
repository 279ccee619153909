import QueryGraph.Proofs.Compile.Edges
import QueryGraph.Proofs.Graph.Evolution
import QueryGraph.Proofs.Graph.Lodging
import QueryGraph.Proofs.Graph.Refetch

/-!
# The fetches of a result

Every fetch that is declared in a compiled statement, at whatever depth, has a vertex of the
result that is fetched, and hangs off the vertex of what the fetch is declared on. Nothing else is
fetched, and everything above a fetched vertex is used and explicit.
-/

namespace QueryGraph

namespace CompiledGraph

variable {compiled : CompiledGraph} {tree : Tree} {history : List GraphEvent} {id : VertexId}
  {vertex : Vertex}

/-- A declared fetch loads a vertex below that of what it is declared on. -/
structure Loads
    (compiled : CompiledGraph)
    (tree : Tree)
    (fetch : NodeId)
    (declared : Fetch)
    (id : VertexId)
    (vertex : Vertex) : Prop where
  isFetch : tree.fetch? fetch = some declared
  merged : compiled.fetches.find? fetch = some id
  found : compiled.graph.vertex? id = some vertex
  fetched : vertex.fetched = true
  used : vertex.used = true
  explicit : vertex.explicit = true
  field : vertex.field = some declared.field
  unconditioned : vertex.on = none
  shared : vertex.mode.isNew = false
  parent : ∃ above, tree.LeadsTo compiled.sources compiled.fetches declared.parent above ∧
    vertex.parent = some above

/-- Everything above a fetched vertex is used and explicit. -/
theorem Tells.marked_above
    {above : VertexId}
    (tells : compiled.Tells tree history)
    (fetched : compiled.graph.Marked Vertex.fetched id)
    (under : compiled.graph.Under id above) :
    compiled.graph.Marked Vertex.used above ∧ compiled.graph.Marked Vertex.explicit above := by
  obtain ⟨event, member, isFetch, rfl⟩ := tells.chronicle.fetched.mp fetched
  have uses : event.uses = true := by
    cases event with
    | granted contributor parent place =>
        cases contributor with
        | fetch => rfl
        | _ => cases isFetch
    | _ => cases isFetch
  constructor
  · have used := tells.chronicle.used.mpr (Or.inl ⟨event, member, uses, rfl⟩)
    induction under with
    | refl => exact used
    | tail _ hangs inductionHypothesis =>
        exact tells.chronicle.used.mpr (Or.inr ⟨_, hangs, inductionHypothesis⟩)
  · exact tells.chronicle.explicit.mpr (Or.inr ⟨event, member, isFetch, under⟩)

/-- What a fetch shares carries no condition, and nobody asked for it alone. -/
theorem Tells.shares
    {fetch : NodeId}
    {declared : Fetch}
    (tells : compiled.Tells tree history)
    (found : compiled.graph.vertex? id = some vertex)
    (below : vertex.isRoot = false)
    (contributes : compiled.Contributes tree id (.fetch fetch declared)) :
    vertex.field = some declared.field ∧ vertex.on = none ∧ vertex.mode.isNew = false := by
  have aggregates := tells.aggregates found below
  have free : ¬ (vertex.on.isSome = true ∨ vertex.mode.isNew = true) := by
    intro isolated
    obtain ⟨source, join, other, exclusive⟩ := aggregates.exists_only_join isolated
    cases aggregates.alone other contributes exclusive
  simp only [not_or, Bool.not_eq_true, Option.isSome_eq_false_iff, Option.isNone_iff_eq_none]
    at free
  exact ⟨aggregates.field contributes, free⟩

end CompiledGraph

namespace Tree

/-- The graph in which a compilation merges its fetches was reached from one that had roots
alone. -/
theorem Course.runs_followed
    {tree : Tree}
    {schema : Schema}
    {config : CompilerConfig}
    {owner : Owner}
    {compiled : CompiledGraph}
    {walk : Walk}
    {graph : JoinGraph}
    {fetched : GraphState}
    {walked followed : List GraphEvent}
    (course : tree.Course schema config owner compiled walk graph fetched walked followed) :
    ∃ start : JoinGraph, start.OnlyRoots ∧ start.Runs graph := by
  refine ⟨{}, JoinGraph.onlyRoots_empty,
    (course.recounts.steps.trans course.steps).runs fun event member => ?_⟩
  cases event with
  | granted contributor parent id =>
      rcases List.mem_append.mp member with isFollowed | isWalked
      · obtain ⟨_, rfl, -⟩ := course.navigations.mp ⟨parent, isFollowed⟩
        rfl
      · obtain ⟨_, _, rfl, -⟩ := course.recounts.declaredBy isWalked
        rfl
  | _ => rfl

/-- While a compilation merges its fetches, its graph absorbs a second fetch that declares what was
just merged, and gives it the same vertices. -/
theorem Course.mergeFetch_copy
    {tree : Tree}
    {schema : Schema}
    {config : CompilerConfig}
    {owner : Owner}
    {compiled : CompiledGraph}
    {walk : Walk}
    {graph : JoinGraph}
    {fetched before after : GraphState}
    {walked followed : List GraphEvent}
    {parent : VertexId}
    {fetch copy : FetchTree}
    (course : tree.Course schema config owner compiled walk graph fetched walked followed)
    (merging : graph.Runs before.graph)
    (older : parent.index < before.graph.size)
    (differ : fetch.SiblingsDiffer)
    (copies : fetch.Copies copy)
    (nodup : fetch.ids.Nodup)
    (copyNodup : copy.ids.Nodup)
    (done : Graphing.mergeFetch schema parent fetch before = .ok () after) :
    ∃ later, Graphing.mergeFetch schema parent copy after = .ok () later ∧
      later.graph = after.graph ∧
      List.Forall₂ (fun id other => ∃ vertex, after.declared.find? id = some vertex ∧
        later.declared.find? other = some vertex) fetch.ids copy.ids := by
  obtain ⟨start, roots, reached⟩ := course.runs_followed
  have upright := (roots.upright.strokes reached.strokes).strokes merging.strokes
  obtain ⟨later, _, again, same, -, -, -, -, alike⟩ :=
    Graphing.mergeFetch_copy upright older differ copies done
  exact ⟨later, again, same, alike nodup copyNodup⟩

variable {tree held : Tree} {schema : Schema} {config : CompilerConfig} {owner : Owner}
  {compiled : CompiledGraph}

/-- What is declared where depends on the nodes of a tree alone. -/
theorem FetchedBelow.of_nodes
    {other : Tree}
    {child parent : NodeId}
    (below : other.FetchedBelow child parent)
    (nodes : other.nodes = tree.nodes) :
    tree.FetchedBelow child parent := by
  have node? := node?_eq_of_nodes nodes.symm
  refine Relation.ReflTransGen.mono (fun low high on => ?_) _ _ below
  obtain ⟨declared, body, found⟩ := on
  exact ⟨declared.of_evolves (.of_eq node?), body, (node? low).trans found⟩

theorem LeadsTo.of_nodes
    {other : Tree}
    {sources fetches : DeclarationMap}
    {node : NodeId}
    {id : VertexId}
    (leads : other.LeadsTo sources fetches node id)
    (nodes : other.nodes = tree.nodes) :
    tree.LeadsTo sources fetches node id := by
  have node? := node?_eq_of_nodes nodes.symm
  cases leads with
  | source found declared => exact .source ((node? node).trans found) declared
  | fetch found merged => exact .fetch ((node? node).trans found) merged

/-- The fetches of a result are those below its sources, and each has a vertex. -/
theorem compile_lodges
    (reachable : tree.Reachable)
    (done : tree.compile schema config owner = (.ok compiled, held)) :
    (∀ {source fetch declared}, source ∈ compiled.sources.keys ->
      tree.fetch? fetch = some declared -> tree.FetchedBelow fetch source ->
        ∃ id above, compiled.fetches.find? fetch = some id ∧
          tree.LeadsTo compiled.sources compiled.fetches declared.parent above ∧
          compiled.graph.HangsOff id above) ∧
      ∀ {fetch}, fetch ∈ compiled.fetches.keys ->
        ∃ source ∈ compiled.sources.keys, tree.FetchedBelow fetch source := by
  obtain ⟨walk, graph, _, walked, followed, course⟩ := compile_course reachable done
  obtain ⟨again, walkedAgain, finished, -⟩ := compile_eq_ok.mp done
  rw [course.walkDone] at walkedAgain
  cases walkedAgain
  obtain ⟨paths, joined, fetched, pathsDone, merged, rfl⟩ := Walk.finish_eq_ok.mp finished
  have nodes := course.declares.nodes
  have pathsHere := PathContext.compilePaths_of_evolves
    (Tree.Matches.of_nodes nodes.symm []).evolves pathsDone
  cases pathsHere.symm.trans course.paths
  have listed := reachable.listed.of_nodes nodes
  have present : ∀ entry ∈ walk.sources.declared.entries, entry.2.index < graph.size := by
    intro entry member
    have found := course.recounts.faithful _ _ member
    exact Nat.lt_of_lt_of_le (course.recounts.present found)
      (course.steps.size_le course.forest_walked)
  constructor
  · intro source fetch declared known isFetch below
    have fetchHere : walk.tree.node? fetch = some (.fetch declared) :=
      (node?_eq_of_nodes nodes fetch).trans (Tree.fetch?_eq_some.mp isFetch)
    obtain ⟨body, id, above, again, declaredAt, leads, hangs⟩ :=
      Graphing.lodges_mergeAllFetches listed course.recounts.nodup present merged
        course.recounts.faithful (reachable.rostered.of_nodes nodes) course.forest_followed known
        fetchHere (below.of_nodes nodes.symm)
    cases (Tree.fetch?_eq_some.mpr fetchHere).symm.trans again
    refine ⟨id, above, declaredAt, leads.of_nodes nodes, ?_⟩
    change (fetched.graph.assignLabels config _).HangsOff id above
    rwa [JoinGraph.hangsOff_eq fun _ => JoinGraph.edge?_assignLabels _]
  · intro fetch known
    obtain ⟨source, declared, below⟩ :=
      Graphing.fetchedBelow_mergeAllFetches listed course.recounts.nodup present merged known
    exact ⟨source, declared, below.of_nodes nodes⟩

/-- A fetch below a source of a result loads a vertex. -/
theorem exists_loads
    {source fetch : NodeId}
    {declared : Fetch}
    (reachable : tree.Reachable)
    (done : tree.compile schema config owner = (.ok compiled, held))
    (known : source ∈ compiled.sources.keys)
    (isFetch : tree.fetch? fetch = some declared)
    (below : tree.FetchedBelow fetch source) :
    ∃ id vertex, compiled.Loads tree fetch declared id vertex := by
  obtain ⟨history, tells⟩ := compile_tells reachable done
  obtain ⟨id, above, merged, leads, vertex, found, hangs⟩ :=
    (compile_lodges reachable done).1 known isFetch below
  have contributes : compiled.Contributes tree id (.fetch fetch declared) := ⟨isFetch, merged⟩
  have fetched : vertex.fetched = true := (tells.fetched_iff found).mpr ⟨_, _, contributes⟩
  obtain ⟨used, explicit⟩ := tells.marked_above ((JoinGraph.marked_iff found).mpr fetched) .refl
  obtain ⟨field, unconditioned, shared⟩ :=
    tells.shares found (by simp [Vertex.isRoot, hangs]) contributes
  exact ⟨id, vertex, {
    isFetch := isFetch
    merged := merged
    found := found
    fetched := fetched
    used := (JoinGraph.marked_iff found).mp used
    explicit := (JoinGraph.marked_iff found).mp explicit
    field := field
    unconditioned := unconditioned
    shared := shared
    parent := ⟨above, leads, hangs⟩ }⟩

/-- Every fetch that is declared on a source of a compiled statement, at whatever depth, loads a
vertex below that of what it is declared on. A vertex that is fetched is loaded by such a fetch,
and everything above it is used and explicit. -/
theorem compiled_loads
    (reachable : tree.Reachable)
    (done : tree.compile schema config owner = (.ok compiled, held)) :
    (∀ {source fetch body declared}, tree.node? source = some (.source body) ->
      body.statement ∈ compiled.statements -> tree.fetch? fetch = some declared ->
        tree.FetchedBelow fetch source ->
          ∃ id vertex, compiled.Loads tree fetch declared id vertex) ∧
      (∀ {id vertex}, compiled.graph.vertex? id = some vertex -> vertex.fetched = true ->
        ∃ source fetch declared, source ∈ compiled.sources.keys ∧
          tree.FetchedBelow fetch source ∧ compiled.Loads tree fetch declared id vertex) ∧
      ∀ {id above}, compiled.graph.Marked Vertex.fetched id -> compiled.graph.Under id above ->
        compiled.graph.Marked Vertex.used above ∧ compiled.graph.Marked Vertex.explicit above := by
  obtain ⟨history, tells⟩ := compile_tells reachable done
  obtain ⟨_, _, _, _, _, complete⟩ := compile_recounts reachable done
  refine ⟨?_, ?_, tells.marked_above⟩
  · intro source fetch body declared found entered isFetch below
    obtain ⟨place, declaredAt⟩ := complete found entered
    exact exists_loads reachable done (DeclarationMap.mem_keys_of_find? declaredAt) isFetch below
  · intro id vertex found fetched
    obtain ⟨fetch, declared, isFetch, merged⟩ := (tells.fetched_iff found).mp fetched
    obtain ⟨source, known, below⟩ :=
      (compile_lodges reachable done).2 (DeclarationMap.mem_keys_of_find? merged)
    obtain ⟨place, other, loads⟩ := exists_loads reachable done known isFetch below
    cases merged.symm.trans loads.merged
    cases found.symm.trans loads.found
    exact ⟨source, fetch, declared, known, below, loads⟩

/-- Employees with a team, and teams with an office. -/
def offices : Schema :=
  ⟨⟨[("Employee", .ofFields "Employee" [
      .scalar "name", .relation "team" "Team" .manyToOne true]),
    ("Team", .ofFields "Team" [.relation "office" "Office" .manyToOne true]),
    ("Office", .ofFields "Office" [])]⟩⟩

/-- A joined team that is fetched with its office. -/
def teamOffice : Tree :=
  (ofKind .query).performAll [
    .build (.root top "Employee"),
    .build (.join ⟨1⟩ "team" .left .optionallyMergeExisting),
    .build (.fetch ⟨1⟩ "team" .left .all),
    .build (.fetch ⟨3⟩ "office" .left .all),
    .build (.access ⟨1⟩ "name"),
    .build (.select top ⟨5⟩)]

/-- The office is fetched below the team, and the employee above both is used and explicit. -/
theorem teamOffice_loads :
    ∃ compiled held declared vertex,
      teamOffice.compile offices {} ⟨8⟩ = (.ok compiled, held) ∧
        teamOffice.FetchedBelow ⟨4⟩ ⟨1⟩ ∧
        compiled.Loads teamOffice ⟨4⟩ declared ⟨2⟩ vertex ∧
        (∃ source fetch other, source ∈ compiled.sources.keys ∧
          teamOffice.FetchedBelow fetch source ∧
          compiled.Loads teamOffice fetch other ⟨2⟩ vertex) ∧
        compiled.graph.Under ⟨2⟩ ⟨0⟩ ∧ compiled.graph.Marked Vertex.used ⟨0⟩ ∧
        compiled.graph.Marked Vertex.explicit ⟨0⟩ := by
  have succeeds : ((teamOffice.compile offices {} ⟨8⟩).1.toOption.any fun compiled =>
      decide (compiled.statements = [top] ∧ compiled.fetches.find? ⟨4⟩ = some ⟨2⟩ ∧
        (compiled.graph.vertex? ⟨2⟩).map Vertex.parent = some (some ⟨1⟩) ∧
        (compiled.graph.vertex? ⟨1⟩).map Vertex.parent = some (some ⟨0⟩))) = true := by
    cbv
  obtain ⟨compiled, held, done, checks⟩ := exists_compiled succeeds
  obtain ⟨statements, merged, low, high⟩ := of_decide_eq_true checks
  have isFetch : teamOffice.fetch? ⟨4⟩ = some ⟨⟨3⟩, "office", .left, .all, []⟩ := by cbv
  have isOuter : teamOffice.node? ⟨3⟩ = some (.fetch ⟨⟨1⟩, "team", .left, .all, [⟨4⟩]⟩) := by cbv
  have isSource : teamOffice.node? ⟨1⟩ =
      some (.source ⟨top, .root "Employee", none, [⟨2⟩], [⟨3⟩]⟩) := by
    cbv
  have onOuter : teamOffice.FetchedOn ⟨4⟩ ⟨3⟩ :=
    ⟨⟨by decide, _, fetch?_eq_some.mp isFetch, rfl⟩, _, fetch?_eq_some.mp isFetch⟩
  have onSource : teamOffice.FetchedOn ⟨3⟩ ⟨1⟩ := ⟨⟨by decide, _, isOuter, rfl⟩, _, isOuter⟩
  have below : teamOffice.FetchedBelow ⟨4⟩ ⟨1⟩ :=
    (Relation.ReflTransGen.single onOuter).tail onSource
  obtain ⟨loaded, fetchedOnly, above⟩ := compiled_loads ⟨.query, _, rfl⟩ done
  obtain ⟨id, vertex, loads⟩ := loaded isSource (by simp [statements]) isFetch below
  cases merged.symm.trans loads.merged
  have under : compiled.graph.Under ⟨2⟩ ⟨0⟩ :=
    (Relation.ReflTransGen.single (Option.map_eq_some_iff.mp low)).tail
      (Option.map_eq_some_iff.mp high)
  exact ⟨compiled, held, _, vertex, done, below, loads, fetchedOnly loads.found loads.fetched,
    under, above ((JoinGraph.marked_iff loads.found).mpr loads.fetched) under⟩

end Tree
end QueryGraph
