import QueryGraph.Proofs.Compile.Forest
import QueryGraph.Proofs.Compile.Sharing
import QueryGraph.Proofs.Path.Shape
import QueryGraph.Proofs.Walk.RootLists

/-!
# The shape of the paths of a result

Every path of a result leads from a root, or from what a correlated source stands for, down the
edges of the graph, and ends with at most two fields. Where a field stands for a declared join,
the relation may be read without that join.
-/

namespace QueryGraph

namespace Route.Leads

variable {tree : Tree} {id : NodeId} {route : Route}

/-- A route begins with a source that is not joined to another one. -/
theorem start_spec (leads : Route.Leads tree id route) :
    route.start ∈ route.sources ∧
      ∃ body, tree.node? route.start = some (.source body) ∧ body.isJoin = false := by
  induction leads with
  | origin found notJoin => exact ⟨List.mem_cons_self, _, found, notJoin⟩
  | join found isJoin leads inductionHypothesis =>
      exact ⟨List.mem_cons_of_mem _ inductionHypothesis.1, inductionHypothesis.2⟩
  | field found leads inductionHypothesis => exact inductionHypothesis
  | treat found leads inductionHypothesis => exact inductionHypothesis

end Route.Leads

namespace CompiledGraph

/-- What the paths of a result were compiled from. -/
def context
    (compiled : CompiledGraph)
    (schema : Schema)
    (config : CompilerConfig) : PathContext :=
  ⟨schema, config.strictSchema, compiled.sources⟩

/-- The record types of the sources of a result. -/
def sourceType?
    (compiled : CompiledGraph)
    (source : NodeId) : Option String :=
  (compiled.sources.find? source).bind fun vertex =>
    (compiled.graph.vertex? vertex).map Vertex.recordType

/-- A vertex that a path may begin at: the root of a source, or the vertex of the root or join
that a correlated source finally stands for. -/
inductive Begins
    (compiled : CompiledGraph)
    (tree : Tree)
    (source : NodeId)
    (first : VertexId) : Prop
  | root
      {body : Source}
      {recordType : String}
      (found : tree.node? source = some (.source body))
      (isRoot : body.kind = .root recordType)
      (declared : compiled.sources.find? source = some first)
      (top : compiled.graph.Marked Vertex.isRoot first)
  | correlated
      {body originalBody : Source}
      {outer original : NodeId}
      (found : tree.node? source = some (.source body))
      (isCorrelated : body.kind = .correlated outer)
      (resolved : tree.resolveCorrelation source = .ok original)
      (originalFound : tree.node? original = some (.source originalBody))
      (isOriginal : originalBody.isCorrelated = false)
      (declared : compiled.sources.find? original = some first)

end CompiledGraph

namespace Tree.Course

variable {tree : Tree} {schema : Schema} {config : CompilerConfig} {owner : Owner}
  {compiled : CompiledGraph} {walk : Walk} {graph : JoinGraph} {fetched : GraphState}
  {walked followed : List GraphEvent}
  (course : tree.Course schema config owner compiled walk graph fetched walked followed)

include course

theorem context_eq : walk.context schema config = compiled.context schema config := by
  rw [course.result]
  rfl

/-- The paths are compiled in a graph in which the declared joins hang off one another. -/
theorem seated : (compiled.context schema config).Seated tree compiled.sourceType?
    walk.sources.graph where
  ready := by
    rw [← course.context_eq]
    have sound : (walk.context schema config).Sound tree walk.sources.graph :=
      course.declares.sound
    refine ⟨sound, ?_⟩
    rw [← sound.sourceType?_eq course.grows_compiled, course.context_eq]
    rfl
  forest := course.forest_walked
  hangs {source declared id} isJoin found := by
    rw [← course.context_eq] at found ⊢
    obtain ⟨parent, granted⟩ := course.recounts.granted isJoin found
    obtain ⟨_, _, same, -, -, above⟩ := course.recounts.declaredBy granted
    cases same
    exact ⟨parent, above, course.recounts.steps.chronicle.granted granted⟩

theorem retains_compiled : graph.Retains compiled.graph where
  grows := by
    obtain ⟨loaded, tells⟩ := course.fetches.tells
    rw [course.graph_eq]
    exact tells.steps.grows.trans (JoinGraph.retouched_assignLabels _ _ _).grows
  hangsOff hangs := by
    obtain ⟨loaded, tells⟩ := course.fetches.tells
    rw [JoinGraph.hangsOff_eq course.edge?_eq]
    exact (tells.steps.retains course.forest_followed).hangsOff hangs

/-- A root that was declared on an entered statement has a root of the graph. -/
theorem isRoot_of_find?
    {source : NodeId}
    {body : Source}
    {recordType : String}
    {first : VertexId}
    (reachable : tree.Reachable)
    (found : tree.node? source = some (.source body))
    (isRoot : body.kind = .root recordType)
    (entered : body.statement ∈ walk.entered)
    (declared : compiled.sources.find? source = some first) :
    compiled.graph.Marked Vertex.isRoot first := by
  have places := (reachable.placed source _ found).1
  rw [isRoot] at places
  obtain ⟨statement, statementFound, isListed⟩ := places
  obtain ⟨⟨_, roots⟩, listed, rfl⟩ := List.mem_map.mp entered
  have lists := Walking.lists_of_walkTree reachable.listed reachable.referring course.walkDone
  obtain ⟨again, againFound, given⟩ := lists.roots listed
  rw [statementFound] at againFound
  cases againFound
  have isGiven : walk.sources.declared.find? source ∈ roots.map some := by
    rw [← given]
    exact List.mem_map_of_mem isListed
  obtain ⟨root, isOneOf, same⟩ := List.mem_map.mp isGiven
  rw [course.result] at declared
  have isFirst : root = first := Option.some.inj (same.trans declared)
  rw [← isFirst, ← JoinGraph.mem_rootIds, ← course.roots_eq, course.result]
  exact List.mem_flatMap_of_mem listed isOneOf

/-- A path begins at a root or at what a correlated source stands for. -/
theorem begins
    {identity : PathIdentity}
    {route : Route}
    {first : VertexId}
    (reachable : tree.Reachable)
    (recorded : identity ∈ walk.allocator.identities)
    (leads : Route.Leads tree identity.node route)
    (declared : compiled.sources.find? route.start = some first) :
    compiled.Begins tree route.start first := by
  obtain ⟨chain, chainFound, -, entered⟩ :=
    Walking.inScope_of_walkTree course.walkDone identity recorded
  obtain ⟨again, againLeads, -, -, within⟩ := reachable.placed.leads_of_chain chainFound
  have same := (leads.route reachable.placed).symm.trans (againLeads.route reachable.placed)
  cases same
  obtain ⟨onRoute, body, found, notJoin⟩ := leads.start_spec
  obtain ⟨_, foundAgain, here⟩ := within _ onRoute
  rw [found] at foundAgain
  cases foundAgain
  cases kind : body.kind with
  | root recordType =>
      exact .root found kind declared
        (course.isRoot_of_find? reachable found kind (here ▸ entered) declared)
  | join parent field direction mode on => simp [Source.isJoin, kind] at notJoin
  | correlated outer =>
      have declaredWalk : walk.sources.declared.find? route.start = some first := by
        rw [course.result] at declared
        exact declared
      obtain ⟨_, -, described⟩ := course.declares.sound.described declaredWalk
      obtain ⟨original, -, resolved, -⟩ := described.resolveCorrelation reachable.placed
      obtain ⟨originalBody, originalFound, isOriginal⟩ := original_of_resolveFrom resolved
      refine .correlated found kind resolved originalFound isOriginal ?_
      rw [course.result]
      exact course.recounts.resolved resolved declaredWalk

/-- Every path of a result traces the route of its identity in the graph of the result. -/
theorem traces_of_path
    {identity : PathIdentity}
    {path : CompiledPath}
    (reachable : tree.Reachable)
    (member : (identity, path) ∈ compiled.paths) :
    identity ∈ walk.allocator.identities ∧
      ∃ route first further names, tree.route identity.node = .ok route ∧
        Route.Leads tree identity.node route ∧
        (compiled.context schema config).Traces compiled.sourceType? compiled.graph
          identity.isDirectlySelected route route path first further names ∧
        names.length ≤ 2 := by
  have leads : ∀ identity ∈ walk.allocator.identities, ∃ route,
      Route.Leads tree identity.node route ∧ tree.route identity.node = .ok route := by
    intro identity recorded
    obtain ⟨chain, found, -⟩ := Walking.inScope_of_walkTree course.walkDone identity recorded
    exact reachable.placed.route_of_pathChain found
  have pathsDone := course.paths
  rw [course.context_eq] at pathsDone
  obtain ⟨-, -, represents⟩ := PathContext.traces_of_compilePaths course.seated leads pathsDone
  obtain ⟨recorded, route, first, further, names, found, routeLeads, traces, short⟩ :=
    represents identity path member
  exact ⟨recorded, route, first, further, names, found, routeLeads,
    traces.mono course.retains_compiled, short⟩

end Tree.Course

namespace Tree

/-- Every path of a result leads from a root, or from what a correlated source stands for, down
the edges of the graph and then over at most two fields. -/
theorem compiled_path_shape
    {tree held : Tree}
    {schema : Schema}
    {config : CompilerConfig}
    {owner : Owner}
    {compiled : CompiledGraph}
    {identity : PathIdentity}
    {path : CompiledPath}
    (reachable : tree.Reachable)
    (done : tree.compile schema config owner = (.ok compiled, held))
    (member : (identity, path) ∈ compiled.paths) :
    ∃ (route : Route) (first : VertexId) (further : List VertexId) (names : List String),
      tree.route identity.node = .ok route ∧
        path.chain.map PathLink.target =
          (first :: further).map LinkTarget.vertex ++ names.map LinkTarget.field ∧
        names.length ≤ 2 ∧
        compiled.Begins tree route.start first ∧
        List.IsChain (fun above id => id ∈ compiled.graph.children above) (first :: further) ∧
        path.nearestVertex? = (first :: further).getLast? ∧
        List.Forall₂
          ((compiled.context schema config).Represents compiled.sourceType? compiled.graph
            identity.isDirectlySelected route)
          route.stations path.targets := by
  obtain ⟨walk, graph, fetched, walked, followed, course⟩ := compile_course reachable done
  obtain ⟨recorded, route, first, further, names, found, routeLeads, traces, short⟩ :=
    course.traces_of_path reachable member
  refine ⟨route, first, further, names, found, traces.shape.chain, short,
    course.begins reachable recorded routeLeads traces.start, ?_, traces.shape.nearest,
    traces.stations⟩
  exact traces.shape.linked.imp fun _ _ hangs => course.forest_compiled.listed.mpr hangs

/-- Employees with a team, teams with an office, and offices that are told apart. -/
def numberedOffices : Schema :=
  ⟨⟨[("Employee", .ofFields "Employee" [.relation "team" "Team" .manyToOne true]),
    ("Team", .ofFields "Team" [.relation "office" "Office" .manyToOne true]),
    ("Office", .ofFields "Office" [.identifier "id"])]⟩⟩

/-- The identifiers of the offices that are joined to the teams of employees. -/
def officeIdentifiers : Tree :=
  (ofKind .query).performAll [
    .build (.root top "Employee"),
    .build (.join ⟨1⟩ "team" .left .optionallyMergeExisting),
    .build (.join ⟨2⟩ "office" .left .optionallyMergeExisting),
    .build (.access ⟨3⟩ "id"),
    .build (.select top ⟨4⟩)]

/-- The key column of a team stands for the office, and the join to the team stays a join. -/
theorem officeIdentifiers_path_shape :
    ∃ (compiled : CompiledGraph) (held : Tree) (identity : PathIdentity) (path : CompiledPath)
      (route : Route) (first : VertexId) (further : List VertexId) (names : List String),
      officeIdentifiers.compile numberedOffices {} ⟨8⟩ = (.ok compiled, held) ∧
        (identity, path) ∈ compiled.paths ∧
        path.targets = [.field "id", .field "office", .vertex ⟨1⟩, .vertex ⟨0⟩] ∧
        officeIdentifiers.route identity.node = .ok route ∧
        path.chain.map PathLink.target =
          (first :: further).map LinkTarget.vertex ++ names.map LinkTarget.field ∧
        compiled.Begins officeIdentifiers route.start first ∧
        List.IsChain (fun above id => id ∈ compiled.graph.children above) (first :: further) ∧
        path.nearestVertex? = (first :: further).getLast? ∧
        List.Forall₂
          ((compiled.context numberedOffices {}).Represents compiled.sourceType? compiled.graph
            identity.isDirectlySelected route)
          route.stations path.targets := by
  have succeeds : ((officeIdentifiers.compile numberedOffices {} ⟨8⟩).1.toOption.any
      fun compiled => compiled.paths.any fun entry =>
        decide (entry.2.targets =
          [.field "id", .field "office", .vertex ⟨1⟩, .vertex ⟨0⟩])) = true := by
    cbv
  obtain ⟨compiled, held, done, listed⟩ := exists_compiled succeeds
  obtain ⟨⟨identity, path⟩, member, targets⟩ := List.any_eq_true.mp listed
  obtain ⟨route, first, further, names, found, chain, -, begins, linked, nearest, stations⟩ :=
    compiled_path_shape ⟨.query, _, rfl⟩ done member
  exact ⟨compiled, held, identity, path, route, first, further, names, done, member,
    of_decide_eq_true targets, found, chain, begins, linked, nearest, stations⟩

end Tree
end QueryGraph
