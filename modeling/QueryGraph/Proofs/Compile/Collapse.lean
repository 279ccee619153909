import QueryGraph.Proofs.Compile.Shape
import QueryGraph.Proofs.Compile.Typing
import QueryGraph.Proofs.Path.Collapse

/-!
# Joins that the paths of a result keep

A path of a result that goes over a declared join leads through the vertex of the join, unless it
ends with the join or its identifier where a key column stands for the join. Whether the join has a
condition makes no difference, so a path may read a key column where the condition rules the joined
record out.
-/

namespace QueryGraph

/-- A source on a route that is not joined to another one is where the route begins. -/
theorem Route.Leads.eq_start
    {tree : Tree}
    {id source : NodeId}
    {body : Source}
    {route : Route}
    (leads : Route.Leads tree id route)
    (onRoute : source ∈ route.sources)
    (found : tree.node? source = some (.source body))
    (notJoin : body.isJoin = false) :
    route.start = source := by
  induction leads with
  | origin => exact (List.mem_singleton.mp onRoute).symm
  | join foundHere kind leads inductionHypothesis =>
      rcases List.mem_cons.mp onRoute with rfl | further
      · rw [found] at foundHere
        cases foundHere
        simp [Source.isJoin, kind] at notJoin
      · exact inductionHypothesis further
  | field foundHere leads inductionHypothesis => exact inductionHypothesis onRoute
  | treat foundHere leads inductionHypothesis => exact inductionHypothesis onRoute

/-- A source that stands for another one is no declared join at the end of a route. -/
theorem Route.Leads.not_endsWith_of_correlated
    {tree : Tree}
    {id source : NodeId}
    {body : Source}
    {route owner : Route}
    {relation : String}
    {direction : JoinDirection}
    {context : PathContext}
    {types : NodeId -> Option String}
    {selected : Bool}
    (leads : Route.Leads tree id route)
    (found : tree.node? source = some (.source body))
    (isCorrelated : body.isCorrelated = true) :
    ¬ context.EndsWith types selected route (.join owner source relation direction) := by
  intro ends
  have notJoin : ∀ {id}, ¬ Route.Leads tree id (.join owner source relation direction) := by
    intro id contrary
    cases contrary with
    | join foundHere kind =>
        rw [found] at foundHere
        cases foundHere
        simp [Source.isCorrelated, kind] at isCorrelated
  induction leads with
  | origin => rcases ends with ⟨contrary, -⟩ | ⟨_, _, _, contrary, -⟩ <;> cases contrary
  | join foundHere kind leads =>
      rcases ends with ⟨same, -⟩ | ⟨_, _, _, contrary, -⟩
      · cases same
        exact notJoin (.join foundHere kind leads)
      · cases contrary
  | field foundHere leads =>
      rcases ends with ⟨contrary, -⟩ | ⟨_, _, _, same, -⟩
      · cases contrary
      · cases same
        exact notJoin leads
  | treat foundHere leads inductionHypothesis => exact inductionHypothesis ends

namespace Tree

/-- A path over a source that finally stands for a declared join leads through the vertex of that
join exactly when it does not collapse: it collapses where it ends with the join, not selected as a
whole, or with its identifier, and the relation leads to at most one record that is joined from the
left or certain to be there. A condition on the join does not keep the path from collapsing. -/
theorem compiled_path_keeps_join_iff
    {tree held : Tree}
    {schema : Schema}
    {config : CompilerConfig}
    {owner : Owner}
    {compiled : CompiledGraph}
    {identity : PathIdentity}
    {path : CompiledPath}
    {route : Route}
    {source join : NodeId}
    {declared : JoinDeclaration}
    (reachable : tree.Reachable)
    (done : tree.compile schema config owner = (.ok compiled, held))
    (member : (identity, path) ∈ compiled.paths)
    (found : tree.route identity.node = .ok route)
    (onRoute : source ∈ route.sources)
    (resolved : tree.resolveCorrelation source = .ok join)
    (isJoin : tree.join? join = some declared) :
    ∃ vertex, compiled.sources.find? join = some vertex ∧
      (.vertex vertex ∈ path.targets ↔
        ¬ (compiled.context schema config).ReadsKey compiled.sourceType?
          identity.isDirectlySelected route source declared) := by
  obtain ⟨walk, graph, fetched, walked, followed, course⟩ := compile_course reachable done
  have leads : ∀ identity ∈ walk.allocator.identities, ∃ route,
      Route.Leads tree identity.node route ∧ tree.route identity.node = .ok route := by
    intro identity recorded
    obtain ⟨chain, chainFound, -⟩ := Walking.inScope_of_walkTree course.walkDone identity recorded
    exact reachable.placed.route_of_pathChain chainFound
  have pathsDone := course.paths
  rw [course.context_eq] at pathsDone
  obtain ⟨-, -, each⟩ := PathContext.seated_of_compilePaths course.seated leads pathsDone
  obtain ⟨recorded, again, between, later, againFound, routeLeads, seated, routeDone, -⟩ :=
    each identity path member
  rw [found] at againFound
  cases againFound
  -- Every source on the route was declared, also where the path does not lead to it.
  have declaredWalk : ∃ vertex, walk.sources.declared.find? source = some vertex := by
    obtain ⟨way, wayLeads, all⟩ :=
      Walking.declared_of_walkTree reachable.placed course.walkDone recorded
    have same := (wayLeads.route reachable.placed).symm.trans found
    cases same
    exact all source onRoute
  obtain ⟨vertex, vertexFound⟩ := declaredWalk
  have joinFound : compiled.sources.find? join = some vertex := by
    rw [course.result]
    exact course.recounts.resolved resolved vertexFound
  have sourceFound : compiled.sources.find? source = some vertex := by
    rw [course.result]
    exact vertexFound
  refine ⟨vertex, joinFound, ?_⟩
  obtain ⟨body, bodyFound⟩ := exists_source_of_resolveCorrelation resolved
  cases isCorrelated : body.isCorrelated with
  | false =>
      rw [resolveCorrelation_of_original bodyFound isCorrelated] at resolved
      cases resolved
      exact PathContext.mem_targets_iff_of_compileRoute seated routeLeads onRoute isJoin
        sourceFound routeDone
  | true =>
      refine ⟨fun _ ⟨_, _, ends⟩ =>
        routeLeads.not_endsWith_of_correlated bodyFound isCorrelated ends, fun _ => ?_⟩
      have notJoin : body.isJoin = false := by
        cases kind : body.kind with
        | correlated outer => simp [Source.isJoin, kind]
        | _ => simp [Source.isCorrelated, kind] at isCorrelated
      obtain ⟨first, further, names, traces, -⟩ :=
        PathContext.traces_of_compileRoute seated routeLeads rfl routeDone
      have start := traces.start
      rw [routeLeads.eq_start onRoute bodyFound notJoin] at start
      cases sourceFound.symm.trans start
      rw [traces.shape.targets_eq]
      simp

/-- The departments of employees, which are told apart by their numbers. -/
def departments : Schema :=
  ⟨⟨[("Department", .ofFields "Department" [.identifier "id", .scalar "name"]),
    ("Employee", .ofFields "Employee" [
      .identifier "id",
      .relation "department" "Department" .manyToOne true])]⟩⟩

/-- The identifiers of the departments of employees, of which only those of a wanted name are
joined. -/
def wantedDepartments : Tree :=
  (ofKind .query).performAll [
    .build (.root top "Employee"),
    .build (.join ⟨1⟩ "department" .left .optionallyMergeExisting),
    .build (.access ⟨2⟩ "name"),
    .build (.namedParameter "wanted"),
    .build (.eq ⟨3⟩ ⟨4⟩),
    .build (.setOn ⟨2⟩ ⟨5⟩),
    .build (.access ⟨2⟩ "id"),
    .build (.select top ⟨6⟩)]

/-- The names of the departments are read over the join. -/
theorem wantedDepartments_keeps_join :
    ∃ (compiled : CompiledGraph) (held : Tree) (identity : PathIdentity) (path : CompiledPath)
      (route : Route) (declared : JoinDeclaration) (vertex : VertexId),
      wantedDepartments.compile departments {} ⟨8⟩ = (.ok compiled, held) ∧
        (identity, path) ∈ compiled.paths ∧ identity.node = ⟨3⟩ ∧
        wantedDepartments.route identity.node = .ok route ∧ ⟨2⟩ ∈ route.sources ∧
        wantedDepartments.join? ⟨2⟩ = some declared ∧ declared.on = some ⟨5⟩ ∧
        compiled.sources.find? ⟨2⟩ = some vertex ∧ .vertex vertex ∈ path.targets ∧
        ¬ (compiled.context departments {}).ReadsKey compiled.sourceType?
          identity.isDirectlySelected route ⟨2⟩ declared := by
  have succeeds : ((wantedDepartments.compile departments {} ⟨8⟩).1.toOption.any fun compiled =>
      decide (compiled.sources.find? ⟨2⟩ = some ⟨1⟩) &&
        compiled.paths.any fun entry =>
          decide (entry.1.node = ⟨3⟩ ∧ .vertex ⟨1⟩ ∈ entry.2.targets)) = true := by
    cbv
  obtain ⟨compiled, held, done, holds⟩ := exists_compiled succeeds
  obtain ⟨joined, listed⟩ := Bool.and_eq_true_iff.mp holds
  obtain ⟨⟨identity, path⟩, member, met⟩ := List.any_eq_true.mp listed
  obtain ⟨isName, reached⟩ := of_decide_eq_true met
  have route : wantedDepartments.route identity.node =
      .ok (.field (.join (.origin ⟨1⟩) ⟨2⟩ "department" .left) "name") := by
    rw [isName]
    rfl
  obtain ⟨vertex, found, keeps⟩ := compiled_path_keeps_join_iff ⟨.query, _, rfl⟩ done member route
    (List.mem_cons_self) (show wantedDepartments.resolveCorrelation ⟨2⟩ = .ok ⟨2⟩ from rfl) rfl
  cases found.symm.trans (of_decide_eq_true joined)
  exact ⟨compiled, held, identity, path, _, _, ⟨1⟩, done, member, isName, route,
    List.mem_cons_self, rfl, rfl, found, reached, keeps.mp reached⟩

/-- The identifiers of the departments are read from the key column of the employees, although the
condition leaves departments out. -/
theorem wantedDepartments_drops_condition :
    ∃ (compiled : CompiledGraph) (held : Tree) (identity : PathIdentity) (path : CompiledPath)
      (route : Route) (declared : JoinDeclaration) (vertex : VertexId),
      wantedDepartments.compile departments {} ⟨8⟩ = (.ok compiled, held) ∧
        (identity, path) ∈ compiled.paths ∧
        wantedDepartments.route identity.node = .ok route ∧ ⟨2⟩ ∈ route.sources ∧
        wantedDepartments.join? ⟨2⟩ = some declared ∧ declared.direction = .left ∧
        declared.on = some ⟨5⟩ ∧ compiled.sources.find? ⟨2⟩ = some vertex ∧
        .vertex vertex ∉ path.targets ∧
        path.targets = [.field "id", .field "department", .vertex ⟨0⟩] := by
  have succeeds : ((wantedDepartments.compile departments {} ⟨8⟩).1.toOption.any fun compiled =>
      decide (compiled.sources.find? ⟨2⟩ = some ⟨1⟩) &&
        compiled.paths.any fun entry =>
          decide (entry.1.node = ⟨6⟩ ∧
            entry.2.targets = [.field "id", .field "department", .vertex ⟨0⟩])) = true := by
    cbv
  obtain ⟨compiled, held, done, holds⟩ := exists_compiled succeeds
  obtain ⟨joined, listed⟩ := Bool.and_eq_true_iff.mp holds
  obtain ⟨⟨identity, path⟩, member, met⟩ := List.any_eq_true.mp listed
  obtain ⟨isIdentifier, targets⟩ := of_decide_eq_true met
  have route : wantedDepartments.route identity.node =
      .ok (.field (.join (.origin ⟨1⟩) ⟨2⟩ "department" .left) "id") := by
    rw [isIdentifier]
    rfl
  exact ⟨compiled, held, identity, path, _, _, ⟨1⟩, done, member, route, List.mem_cons_self, rfl,
    rfl, rfl, of_decide_eq_true joined, by simp [targets], targets⟩

end Tree
end QueryGraph
