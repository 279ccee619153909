import QueryGraph.Proofs.Graph.Description
import QueryGraph.Proofs.Path.Route
import QueryGraph.Proofs.Path.Steps

/-!
# The statement of a compiled path

All sources on the way of a path read the records of one statement, and all vertices of the
compiled path belong to it.
-/

namespace QueryGraph
namespace Route

/-- No source on a route reads records of another statement. -/
def StaysIn
    (schema : Schema)
    (tree : Tree)
    (statement : NodeId)
    (route : Route) : Prop :=
  ∀ source ∈ route.sources, ∀ {type other},
    Describes schema tree source type other -> other = statement

/-- A source is itself the first on its way. -/
theorem Leads.mem_sources
    {tree : Tree}
    {id : NodeId}
    {route : Route}
    {body : Source}
    (leads : Leads tree id route)
    (found : tree.node? id = some (.source body)) :
    id ∈ route.sources := by
  cases leads with
  | origin => exact List.mem_cons_self
  | join => exact List.mem_cons_self
  | field again =>
      rw [found] at again
      cases again
  | treat again =>
      rw [found] at again
      cases again

/-- A join reads records of the statement of the source that it hangs off, so all sources on
a way read records of one statement. -/
theorem Leads.exists_staysIn
    {tree : Tree}
    {id : NodeId}
    {route : Route}
    (schema : Schema)
    (leads : Leads tree id route) :
    ∃ statement, route.StaysIn schema tree statement := by
  induction leads with
  | @origin id body found notJoin =>
      by_cases described : ∃ type statement, Describes schema tree id type statement
      · obtain ⟨type, statement, described⟩ := described
        refine ⟨statement, fun source member _ other otherDescribed => ?_⟩
        rw [List.mem_singleton.mp member] at otherDescribed
        exact (otherDescribed.unique described).2
      · refine ⟨Tree.top, fun source member type other otherDescribed => ?_⟩
        rw [List.mem_singleton.mp member] at otherDescribed
        exact absurd ⟨type, other, otherDescribed⟩ described
  | @join id parent body field direction mode on above found isJoin leads inductionHypothesis =>
      obtain ⟨statement, stays⟩ := inductionHypothesis
      refine ⟨statement, fun source member type other described => ?_⟩
      rcases List.mem_cons.mp member with rfl | further
      · obtain ⟨parentType, parentDescribed, -⟩ := described.of_join found isJoin
        obtain ⟨parentBody, parentFound⟩ := parentDescribed.isSource
        exact stays parent (leads.mem_sources parentFound) parentDescribed
      · exact stays source further described
  | field found leads inductionHypothesis => exact inductionHypothesis
  | treat found leads inductionHypothesis => exact inductionHypothesis

end Route

/-- A vertex of a statement stays one of it. -/
theorem JoinGraph.Grows.belongs
    {before after : JoinGraph}
    {id : VertexId}
    {statement : NodeId}
    (grows : before.Grows after)
    (belongs : ∃ vertex, before.vertex? id = some vertex ∧ vertex.statement = statement) :
    ∃ vertex, after.vertex? id = some vertex ∧ vertex.statement = statement := by
  obtain ⟨vertex, found, same⟩ := belongs
  obtain ⟨later, laterFound, -, -, laterStatement⟩ := grows id vertex found
  exact ⟨later, laterFound, laterStatement.trans same⟩

namespace CompiledPath

/-- The vertices that a path leads through, nearest first. -/
def vertices (path : CompiledPath) : List VertexId := path.links.filterMap PathLink.vertex?

@[simp] theorem vertices_toVertex_none (id : VertexId) :
    (toVertex id none).vertices = [id] := rfl

@[simp] theorem vertices_toVertex_some (id : VertexId) (parent : CompiledPath) :
    (toVertex id (some parent)).vertices = id :: parent.vertices := rfl

@[simp] theorem vertices_toField (name : String) (parent : CompiledPath) :
    (toField name parent).vertices = parent.vertices := rfl

@[simp] theorem vertices_treat (path : CompiledPath) (asType : String) :
    (path.treat asType).vertices = path.vertices := rfl

theorem mem_vertices_of_leaf
    {path : CompiledPath}
    {id : VertexId}
    (leads : path.leaf.vertex? = some id) :
    id ∈ path.vertices :=
  List.mem_filterMap.mpr ⟨path.leaf, List.mem_cons_self, leads⟩

/-- A path leads through vertices, all of which belong to a statement. -/
structure StaysIn
    (path : CompiledPath)
    (graph : JoinGraph)
    (statement : NodeId) : Prop where
  anchored : path.vertices ≠ []
  belongs : ∀ id ∈ path.vertices,
    ∃ vertex, graph.vertex? id = some vertex ∧ vertex.statement = statement

namespace StaysIn

variable {path : CompiledPath} {graph : JoinGraph} {statement : NodeId}

theorem of_grows
    {later : JoinGraph}
    (stays : path.StaysIn graph statement)
    (grows : graph.Grows later) :
    path.StaysIn later statement where
  anchored := stays.anchored
  belongs id member := grows.belongs (stays.belongs id member)

theorem root
    {id : VertexId}
    (belongs : ∃ vertex, graph.vertex? id = some vertex ∧ vertex.statement = statement) :
    (toVertex id none).StaysIn graph statement where
  anchored := by simp
  belongs other member := by
    rw [vertices_toVertex_none] at member
    rw [List.mem_singleton.mp member]
    exact belongs

theorem toVertex
    {id : VertexId}
    (stays : path.StaysIn graph statement)
    (belongs : ∃ vertex, graph.vertex? id = some vertex ∧ vertex.statement = statement) :
    (CompiledPath.toVertex id (some path)).StaysIn graph statement where
  anchored := by simp
  belongs other member := by
    rcases List.mem_cons.mp member with rfl | above
    · exact belongs
    · exact stays.belongs other above

theorem toField
    (stays : path.StaysIn graph statement)
    (name : String) :
    (CompiledPath.toField name path).StaysIn graph statement :=
  ⟨stays.anchored, stays.belongs⟩

theorem treat
    (stays : path.StaysIn graph statement)
    (asType : String) :
    (path.treat asType).StaysIn graph statement :=
  ⟨stays.anchored, stays.belongs⟩

end StaysIn
end CompiledPath

namespace PathContext

variable {context : PathContext} {tree : Tree} {statement : NodeId} {before after : JoinGraph}

/-- The graph agrees with the declared sources. -/
def Sound
    (context : PathContext)
    (tree : Tree)
    (graph : JoinGraph) : Prop :=
  GraphState.Sound { graph := graph, declared := context.sources } context.schema tree

theorem Sound.of_grows
    (sound : context.Sound tree before)
    (grows : before.Grows after)
    (coherent : after.Coherent context.schema) :
    context.Sound tree after :=
  GraphState.Sound.of_grows sound grows coherent

theorem Sound.setUsed
    (sound : context.Sound tree before)
    (id : VertexId) :
    context.Sound tree (before.setUsed id) :=
  sound.of_grows (JoinGraph.retouched_setUsed before id).grows
    ((JoinGraph.retouched_setUsed before id).coherent sound.coherent)

/-- A declared source on a route has a vertex in the statement of the route. -/
theorem Sound.sourceVertex
    {route : Route}
    {source : NodeId}
    {id : VertexId}
    (sound : context.Sound tree before)
    (routeStays : route.StaysIn context.schema tree statement)
    (member : source ∈ route.sources)
    (declared : context.sources.find? source = some id) :
    ∃ vertex, before.vertex? id = some vertex ∧ vertex.statement = statement := by
  obtain ⟨vertex, found, described⟩ := sound.described declared
  exact ⟨vertex, found, routeStays source member described⟩

/-- A step of compiling a path whose vertices belong to a statement. -/
structure Stays
    (context : PathContext)
    (tree : Tree)
    (statement : NodeId)
    (before after : JoinGraph)
    (path : CompiledPath) : Prop where
  grows : before.Grows after
  sound : context.Sound tree after
  path : path.StaysIn after statement

/-- A join that is made below a vertex belongs to the statement of the vertex. -/
theorem implicitJoin_stays
    {owner id : VertexId}
    {name : String}
    (sound : context.Sound tree before)
    (ownerIn : ∃ above, before.vertex? owner = some above ∧ above.statement = statement)
    (done : context.implicitJoin owner name before = .ok id after) :
    before.Grows after ∧ context.Sound tree after ∧
      ∃ vertex, after.vertex? id = some vertex ∧ vertex.statement = statement := by
  obtain ⟨above, ownerFound, same⟩ := ownerIn
  obtain ⟨target, resolution, leads, resolved, rfl⟩ := implicitJoin_eq_ok.mp done
  have leads : context.schema.relationTarget above.recordType name = .ok target := by
    unfold Graphing.typeOf at leads
    rwa [ownerFound] at leads
  obtain ⟨grows, coherent, vertex, found, -, -, sameStatement⟩ :=
    JoinGraph.resolve_spec ownerFound sound.coherent leads resolved
  exact ⟨grows, sound.of_grows grows coherent, vertex, found, sameStatement.trans same⟩

mutual

/-- The vertices of a compiled route belong to the statement of its sources. -/
theorem compileRoute_stays
    {leaf selected : Bool}
    {path : CompiledPath}
    {before after : JoinGraph}
    (sound : context.Sound tree before) :
    (route : Route) -> route.StaysIn context.schema tree statement ->
      context.compileRoute route leaf selected before = .ok path after ->
      context.Stays tree statement before after path
  | .origin source, routeStays, done => by
      obtain ⟨id, declared, rfl, rfl⟩ := compileRoute_origin_eq_ok.mp done
      have belongs := sound.sourceVertex routeStays List.mem_cons_self declared
      have grows := (JoinGraph.retouched_setUsed before id).grows
      exact ⟨grows, sound.setUsed id, .root (grows.belongs belongs)⟩
  | .join parent source field direction, routeStays, done => by
      have parentStays : parent.StaysIn context.schema tree statement :=
        fun other member => routeStays other (List.mem_cons_of_mem source member)
      obtain ⟨stands, -, ⟨-, above, aboveDone, rfl⟩ | ⟨-, id, above, declared, aboveDone, rfl⟩⟩ :=
        compileRoute_join_eq_ok.mp done
      · have aboveStays := compileRoute_stays sound parent parentStays aboveDone
        exact ⟨aboveStays.grows, aboveStays.sound, aboveStays.path.toField field⟩
      · have belongs := sound.sourceVertex routeStays List.mem_cons_self declared
        have aboveStays := compileRoute_stays (sound.setUsed id) parent parentStays aboveDone
        have grows := (JoinGraph.retouched_setUsed before id).grows.trans aboveStays.grows
        exact ⟨grows, aboveStays.sound, aboveStays.path.toVertex (grows.belongs belongs)⟩
  | .field parent name, routeStays, done => by
      obtain ⟨parentType, field, collapsed, between, -, -, attempt, rest⟩ :=
        compileRoute_field_eq_ok.mp done
      have attempted : before.Grows between ∧ context.Sound tree between ∧
          ∀ found, collapsed = some found -> found.StaysIn between statement := by
        unfold attemptField at attempt
        split at attempt
        · exact collapseIdentifier_stays sound parent routeStays attempt
        · cases attempt
          exact ⟨.refl _, sound, by simp⟩
      obtain ⟨growsBetween, soundBetween, collapsedStays⟩ := attempted
      rcases rest with ⟨isCollapsed, rfl⟩ | ⟨-, navigated⟩
      · exact ⟨growsBetween, soundBetween, collapsedStays path isCollapsed⟩
      have result := navigateField_eq_ok.mp navigated
      split at result
      · obtain ⟨above, middle, owner, id, grown, aboveDone, isOwner, joinDone, rfl, rfl⟩ := result
        have aboveStays := compileRoute_stays soundBetween parent routeStays aboveDone
        have ownerBelongs :=
          aboveStays.path.belongs owner (CompiledPath.mem_vertices_of_leaf isOwner)
        obtain ⟨growsJoin, soundJoin, belongs⟩ :=
          implicitJoin_stays aboveStays.sound ownerBelongs joinDone
        have growsUsed := (JoinGraph.retouched_setUsed grown id).grows
        have growsAbove := growsJoin.trans growsUsed
        exact ⟨growsBetween.trans (aboveStays.grows.trans growsAbove), soundJoin.setUsed id,
          (aboveStays.path.of_grows growsAbove).toVertex (growsUsed.belongs belongs)⟩
      · obtain ⟨-, above, aboveDone, rfl⟩ := result
        have aboveStays := compileRoute_stays soundBetween parent routeStays aboveDone
        exact ⟨growsBetween.trans aboveStays.grows, aboveStays.sound, aboveStays.path.toField name⟩
  | .treat target asType, routeStays, done => by
      obtain ⟨declared, inner, -, innerDone, rfl⟩ := compileRoute_treat_eq_ok.mp done
      have innerStays := compileRoute_stays sound target routeStays innerDone
      exact ⟨innerStays.grows, innerStays.sound, innerStays.path.treat asType⟩

/-- The vertices of a collapsed identifier belong to the statement of its sources. -/
theorem collapseIdentifier_stays
    {identifier : String}
    {collapsed : Option CompiledPath}
    {before after : JoinGraph}
    (sound : context.Sound tree before) :
    (route : Route) -> route.StaysIn context.schema tree statement ->
      context.collapseIdentifier route identifier before = .ok collapsed after ->
      before.Grows after ∧ context.Sound tree after ∧
        ∀ found, collapsed = some found -> found.StaysIn after statement
  | .origin source, _, done => by
      cases done
      exact ⟨.refl _, sound, by simp⟩
  | .join owner source field direction, routeStays, done => by
      have ownerStays : owner.StaysIn context.schema tree statement :=
        fun other member => routeStays other (List.mem_cons_of_mem source member)
      obtain ⟨stands, -, ⟨-, inner, innerDone, rfl⟩ | ⟨-, rfl, rfl⟩⟩ :=
        collapseIdentifier_join_eq_ok.mp done
      · have innerStays := compileRoute_stays sound owner ownerStays innerDone
        refine ⟨innerStays.grows, innerStays.sound, fun found same => ?_⟩
        cases same
        exact (innerStays.path.toField field).toField identifier
      · exact ⟨.refl _, sound, by simp⟩
  | .field owner name, routeStays, done => by
      obtain ⟨ownerType, relation, -, -, ⟨-, inner, innerDone, rfl⟩ | ⟨-, rfl, rfl⟩⟩ :=
        collapseIdentifier_field_eq_ok.mp done
      · have innerStays := compileRoute_stays sound owner routeStays innerDone
        refine ⟨innerStays.grows, innerStays.sound, fun found same => ?_⟩
        cases same
        exact (innerStays.path.toField name).toField identifier
      · exact ⟨.refl _, sound, by simp⟩
  | .treat target asType, _, done => by
      cases done
      exact ⟨.refl _, sound, by simp⟩

end

/-- Every compiled path of a list stays in the statement of its sources, also when later
paths are compiled. -/
theorem compilePaths_stays
    {identities : List PathIdentity}
    {paths : List (PathIdentity × CompiledPath)}
    (sound : context.Sound tree before)
    (leads : ∀ identity ∈ identities, ∃ route, Route.Leads tree identity.node route ∧
      tree.route identity.node = .ok route)
    (done : context.compilePaths tree identities before = .ok paths after) :
    before.Grows after ∧ context.Sound tree after ∧
      ∀ identity path, (identity, path) ∈ paths -> identity ∈ identities ∧
        ∀ route statement, tree.route identity.node = .ok route ->
          route.StaysIn context.schema tree statement -> path.StaysIn after statement := by
  induction identities generalizing before paths with
  | nil =>
      cases done
      exact ⟨.refl _, sound, fun identity path member => by cases member⟩
  | cons first identities inductionHypothesis =>
      obtain ⟨path, between, rest, pathDone, restDone, rfl⟩ := compilePaths_cons_eq_ok.mp done
      obtain ⟨route, routeFound, routeDone⟩ := compilePath_eq_ok.mp pathDone
      obtain ⟨other, otherLeads, otherFound⟩ := leads first List.mem_cons_self
      rw [routeFound] at otherFound
      cases otherFound
      obtain ⟨_, someStays⟩ := otherLeads.exists_staysIn context.schema
      have between := compileRoute_stays sound route someStays routeDone
      obtain ⟨grows, soundAfter, later⟩ := inductionHypothesis between.sound
        (fun identity member => leads identity (List.mem_cons_of_mem _ member)) restDone
      refine ⟨between.grows.trans grows, soundAfter, fun identity found member => ?_⟩
      rcases List.mem_cons.mp member with same | further
      · cases same
        refine ⟨List.mem_cons_self, fun again statement againFound stays => ?_⟩
        rw [routeFound] at againFound
        cases againFound
        exact (compileRoute_stays sound route stays routeDone).path.of_grows grows
      · obtain ⟨listed, stays⟩ := later identity found further
        exact ⟨List.mem_cons_of_mem _ listed, stays⟩

end PathContext
end QueryGraph
