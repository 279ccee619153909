import Mathlib.Data.List.Chain
import Mathlib.Data.List.Forall2
import QueryGraph.Proofs.Path.History
import QueryGraph.Proofs.Path.Typing

/-!
# The shape of a compiled path

A compiled path leads down the join graph, from the vertex of the source that its route begins
with, and then over at most two fields. A field stands for a declared join only where the key
column on the near side says the same, and only at the end of the path.
-/

namespace QueryGraph

namespace Route

/-- The sources and fields on a route, nearest first, each as the route that leads to it. -/
def stations : Route -> List Route
  | .origin source => [.origin source]
  | .join parent source relation direction =>
      .join parent source relation direction :: parent.stations
  | .field parent name => .field parent name :: parent.stations
  | .treat target _ => target.stations

/-- The source that a route begins with. -/
def start : Route -> NodeId
  | .origin source => source
  | .join parent _ _ _ => parent.start
  | .field parent _ => parent.start
  | .treat target _ => target.start

/-- A route without the treats that it ends with. -/
def stripped : Route -> Route
  | .origin source => .origin source
  | .join parent source relation direction => .join parent source relation direction
  | .field parent name => .field parent name
  | .treat target _ => target.stripped

end Route

/-! ## Links -/

/-- The vertex that a link leads to. -/
def LinkTarget.vertex? : LinkTarget -> Option VertexId
  | .vertex id => some id
  | .field _ => none

/-- The field that a link leads to. -/
def LinkTarget.field? : LinkTarget -> Option String
  | .vertex _ => none
  | .field name => some name

namespace CompiledPath

/-- What the links of a path lead to, nearest first. -/
def targets (path : CompiledPath) : List LinkTarget := path.links.map PathLink.target

@[simp] theorem targets_toVertex_some (id : VertexId) (parent : CompiledPath) :
    (toVertex id (some parent)).targets = .vertex id :: parent.targets := rfl

@[simp] theorem targets_toField (name : String) (parent : CompiledPath) :
    (toField name parent).targets = .field name :: parent.targets := rfl

@[simp] theorem targets_treat (path : CompiledPath) (asType : String) :
    (path.treat asType).targets = path.targets := rfl

/-- A path leads from a vertex down to further ones, each of which hangs off the one before, and
then over some fields. -/
structure Shape
    (path : CompiledPath)
    (graph : JoinGraph)
    (first : VertexId)
    (further : List VertexId)
    (names : List String) : Prop where
  chain : path.chain.map PathLink.target =
    (first :: further).map LinkTarget.vertex ++ names.map LinkTarget.field
  linked : List.IsChain (fun above id => graph.HangsOff id above) (first :: further)

theorem map_chain (path : CompiledPath) :
    path.chain.map PathLink.target = path.targets.reverse := by
  rw [chain, targets, List.map_reverse]

theorem vertices_eq_filterMap (path : CompiledPath) :
    path.vertices = path.targets.filterMap LinkTarget.vertex? := by
  rw [targets, List.filterMap_map]
  rfl

namespace Shape

variable {path : CompiledPath} {graph : JoinGraph} {first id above : VertexId}
  {further : List VertexId} {names : List String}

theorem root (graph : JoinGraph) (id : VertexId) : (toVertex id none).Shape graph id [] [] where
  chain := rfl
  linked := List.isChain_singleton id

theorem targets_eq (shape : path.Shape graph first further names) :
    path.targets = names.reverse.map LinkTarget.field ++
      (first :: further).reverse.map LinkTarget.vertex := by
  rw [← List.reverse_reverse path.targets, ← map_chain, shape.chain, List.reverse_append,
    List.map_reverse, List.map_reverse]

theorem vertices_eq (shape : path.Shape graph first further names) :
    path.vertices = (first :: further).reverse := by
  have ofVertices : LinkTarget.vertex? ∘ LinkTarget.vertex = some := rfl
  have ofFields : LinkTarget.vertex? ∘ LinkTarget.field = fun _ => none := rfl
  rw [vertices_eq_filterMap, shape.targets_eq, List.filterMap_append, List.filterMap_map,
    List.filterMap_map, ofVertices, ofFields, List.filterMap_some, List.filterMap_none,
    List.nil_append]

theorem filterMap_field? (shape : path.Shape graph first further names) :
    path.chain.filterMap PathLink.field? = names := by
  have targets : path.chain.filterMap PathLink.field? =
      (path.chain.map PathLink.target).filterMap LinkTarget.field? := by
    rw [List.filterMap_map]
    rfl
  have ofVertices : LinkTarget.field? ∘ LinkTarget.vertex = fun _ => none := rfl
  have ofFields : LinkTarget.field? ∘ LinkTarget.field = some := rfl
  rw [targets, shape.chain, List.filterMap_append, List.filterMap_map, List.filterMap_map,
    ofVertices, ofFields, List.filterMap_none, List.filterMap_some, List.nil_append]

/-- The vertex that is nearest to the end of a path is the last one that it leads down to. -/
theorem nearest (shape : path.Shape graph first further names) :
    path.nearestVertex? = (first :: further).getLast? := by
  rw [← List.head?_reverse, ← shape.vertices_eq, vertices, List.head?_filterMap]
  rfl

theorem toVertex
    (shape : path.Shape graph first further [])
    (leaf : path.leaf.vertex? = some above)
    (hangs : graph.HangsOff id above) :
    (CompiledPath.toVertex id (some path)).Shape graph first (further ++ [id]) [] where
  chain := by
    have earlier := shape.chain
    rw [map_chain, List.map_nil, List.append_nil] at earlier
    rw [map_chain, targets_toVertex_some, List.reverse_cons, earlier]
    simp
  linked := by
    have last : (first :: further).getLast? = some above := by
      rw [← shape.nearest, nearestVertex?, links, List.findSome?_cons, leaf]
    rw [← List.cons_append]
    refine List.isChain_append.mpr ⟨shape.linked, List.isChain_singleton id, ?_⟩
    intro lowest isLowest next isNext
    rw [last] at isLowest
    cases isLowest
    cases isNext
    exact hangs

theorem toField
    (shape : path.Shape graph first further names)
    (name : String) :
    (CompiledPath.toField name path).Shape graph first further (names ++ [name]) where
  chain := by
    have earlier := shape.chain
    rw [map_chain] at earlier
    rw [map_chain, targets_toField, List.reverse_cons, earlier]
    simp
  linked := shape.linked

theorem treat
    (shape : path.Shape graph first further names)
    (asType : String) :
    (path.treat asType).Shape graph first further names where
  chain := by
    rw [map_chain, targets_treat, ← map_chain, shape.chain]
  linked := shape.linked

theorem mono
    {later : JoinGraph}
    (shape : path.Shape graph first further names)
    (kept : ∀ {id above}, graph.HangsOff id above -> later.HangsOff id above) :
    path.Shape later first further names where
  chain := shape.chain
  linked := shape.linked.imp fun _ _ hangs => kept hangs

end Shape
end CompiledPath

/-! ## Graphs that keep what hangs off what -/

namespace JoinGraph

variable {before after : JoinGraph} {id : VertexId}

/-- Vertices are added at most, and what hangs off a vertex goes on doing so. -/
structure Retains (before after : JoinGraph) : Prop where
  grows : before.Grows after
  hangsOff : ∀ {id above}, before.HangsOff id above -> after.HangsOff id above

namespace Retains

theorem refl (graph : JoinGraph) : graph.Retains graph where
  grows := .refl graph
  hangsOff hangs := hangs

theorem trans
    {first second third : JoinGraph}
    (earlier : first.Retains second)
    (later : second.Retains third) :
    first.Retains third where
  grows := earlier.grows.trans later.grows
  hangsOff hangs := later.hangsOff (earlier.hangsOff hangs)

end Retains

theorem Step.retains
    {event : GraphEvent}
    (step : before.Step event after)
    (forest : before.Forest) :
    before.Retains after where
  grows := step.grows
  hangsOff hangs := ((step.effect forest).hangsOff hangs.lt_size).mpr hangs

theorem Steps.retains
    {history : List GraphEvent}
    (steps : before.Steps history after)
    (forest : before.Forest) :
    before.Retains after := by
  induction steps with
  | none => exact .refl before
  | next earlier step inductionHypothesis =>
      exact inductionHypothesis.trans (step.retains (earlier.forest forest))

/-- The vertex that a contributor was granted below another one hangs off that one from then
on. -/
theorem Steps.hangsOff_of_mem
    {history : List GraphEvent}
    {contributor : Contributor}
    {parent : VertexId}
    (steps : before.Steps history after)
    (forest : before.Forest)
    (member : GraphEvent.granted contributor parent id ∈ history) :
    after.HangsOff id parent := by
  induction steps with
  | none => cases member
  | next earlier step inductionHypothesis =>
      have isForest := earlier.forest forest
      rcases List.mem_cons.mp member with rfl | old
      · exact (step.effect isForest).edges.2.mpr (Or.inr ⟨rfl, rfl⟩)
      · exact (step.retains isForest).hangsOff (inductionHypothesis old)

end JoinGraph

/-! ## What the links of a path stand for -/

namespace PathContext

/-- The key column on the near side stands for a declared join: the relation leads to at most
one record, which may be missing because the join is a left one, or is certain to be there
because the schema is trusted. -/
def Keyed
    (context : PathContext)
    (types : NodeId -> Option String)
    (owner : Route)
    (relation : String)
    (direction : JoinDirection) : Prop :=
  ∃ type declared, owner.type? context.schema types = some type ∧
    context.schema.fieldOf? type relation = some declared ∧ declared.isToOne = true ∧
    (direction = .left ∨ context.strictSchema = true ∧ declared.optional = false ∧
      declared.relationKind? = some .manyToOne)

/-- A route ends with a declared join that is not selected as a whole record, or with the
identifier that is read from that join. -/
def EndsWith
    (context : PathContext)
    (types : NodeId -> Option String)
    (selected : Bool)
    (whole join : Route) : Prop :=
  whole.stripped = join ∧ selected = false ∨
    ∃ name type declared, whole.stripped = .field join name ∧
      join.type? context.schema types = some type ∧
      context.schema.fieldOf? type name = some declared ∧ declared.isIdentifier = true

/-- What a link of a path along a whole route may lead to, by the source or the field that it
stands for. -/
inductive Represents
    (context : PathContext)
    (types : NodeId -> Option String)
    (graph : JoinGraph)
    (selected : Bool)
    (whole : Route) : Route -> LinkTarget -> Prop
  | origin
      {source : NodeId}
      {id : VertexId}
      (declared : context.sources.find? source = some id) :
      Represents context types graph selected whole (.origin source) (.vertex id)
  | edge
      {owner : Route}
      {source : NodeId}
      {relation : String}
      {direction : JoinDirection}
      {id : VertexId}
      (declared : context.sources.find? source = some id) :
      Represents context types graph selected whole (.join owner source relation direction)
        (.vertex id)
  | key
      {owner : Route}
      {source : NodeId}
      {relation : String}
      {direction : JoinDirection}
      (keyed : context.Keyed types owner relation direction)
      (ends : context.EndsWith types selected whole (.join owner source relation direction)) :
      Represents context types graph selected whole (.join owner source relation direction)
        (.field relation)
  | navigated
      {owner : Route}
      {name : String}
      {id : VertexId}
      {vertex : Vertex}
      (found : graph.vertex? id = some vertex)
      (named : vertex.field = some name) :
      Represents context types graph selected whole (.field owner name) (.vertex id)
  | read
      (owner : Route)
      (name : String) :
      Represents context types graph selected whole (.field owner name) (.field name)

theorem Represents.mono
    {context : PathContext}
    {types : NodeId -> Option String}
    {before after : JoinGraph}
    {selected : Bool}
    {whole station : Route}
    {target : LinkTarget}
    (represents : context.Represents types before selected whole station target)
    (grows : before.Grows after) :
    context.Represents types after selected whole station target := by
  cases represents with
  | origin declared => exact .origin declared
  | edge declared => exact .edge declared
  | key keyed ends => exact .key keyed ends
  | @navigated _ _ id vertex found named =>
      obtain ⟨later, laterFound, -, same, -⟩ := grows id vertex found
      exact .navigated laterFound (same.trans named)
  | read owner name => exact .read owner name

/-- A path has the shape of a compiled one, begins at the vertex of the source that a route
begins with, and has a link for every source and every field on the route. -/
structure Traces
    (context : PathContext)
    (types : NodeId -> Option String)
    (graph : JoinGraph)
    (selected : Bool)
    (whole route : Route)
    (path : CompiledPath)
    (first : VertexId)
    (further : List VertexId)
    (names : List String) : Prop where
  shape : path.Shape graph first further names
  start : context.sources.find? route.start = some first
  stations : List.Forall₂ (context.Represents types graph selected whole) route.stations
    path.targets

variable {context : PathContext} {tree : Tree} {types : NodeId -> Option String}
  {graph before after : JoinGraph} {selected : Bool} {whole route : Route} {path : CompiledPath}
  {first : VertexId} {further : List VertexId} {names : List String}

namespace Traces

theorem origin
    {source : NodeId}
    {id : VertexId}
    (declared : context.sources.find? source = some id) :
    context.Traces types graph selected whole (.origin source) (.toVertex id none) id [] [] where
  shape := .root graph id
  start := declared
  stations := .cons (.origin declared) .nil

theorem join
    {source : NodeId}
    {id above : VertexId}
    (traces : context.Traces types graph selected whole route path first further [])
    (leaf : path.leaf.vertex? = some above)
    (hangs : graph.HangsOff id above)
    (declared : context.sources.find? source = some id)
    (relation : String)
    (direction : JoinDirection) :
    context.Traces types graph selected whole (.join route source relation direction)
      (.toVertex id (some path)) first (further ++ [id]) [] where
  shape := traces.shape.toVertex leaf hangs
  start := traces.start
  stations := .cons (.edge declared) traces.stations

theorem key
    {source : NodeId}
    {relation : String}
    {direction : JoinDirection}
    (traces : context.Traces types graph selected whole route path first further names)
    (keyed : context.Keyed types route relation direction)
    (ends : context.EndsWith types selected whole (.join route source relation direction)) :
    context.Traces types graph selected whole (.join route source relation direction)
      (.toField relation path) first further (names ++ [relation]) where
  shape := traces.shape.toField relation
  start := traces.start
  stations := .cons (.key keyed ends) traces.stations

theorem navigate
    {name : String}
    {id above : VertexId}
    {vertex : Vertex}
    (traces : context.Traces types graph selected whole route path first further [])
    (leaf : path.leaf.vertex? = some above)
    (hangs : graph.HangsOff id above)
    (found : graph.vertex? id = some vertex)
    (named : vertex.field = some name) :
    context.Traces types graph selected whole (.field route name) (.toVertex id (some path)) first
      (further ++ [id]) [] where
  shape := traces.shape.toVertex leaf hangs
  start := traces.start
  stations := .cons (.navigated found named) traces.stations

theorem read
    (traces : context.Traces types graph selected whole route path first further names)
    (name : String) :
    context.Traces types graph selected whole (.field route name) (.toField name path) first
      further (names ++ [name]) where
  shape := traces.shape.toField name
  start := traces.start
  stations := .cons (.read route name) traces.stations

theorem treat
    (traces : context.Traces types graph selected whole route path first further names)
    (asType : String) :
    context.Traces types graph selected whole (.treat route asType) (path.treat asType) first
      further names where
  shape := traces.shape.treat asType
  start := traces.start
  stations := traces.stations

theorem mono
    (traces : context.Traces types before selected whole route path first further names)
    (retains : before.Retains after) :
    context.Traces types after selected whole route path first further names where
  shape := traces.shape.mono retains.hangsOff
  start := traces.start
  stations := traces.stations.imp fun _ _ represents => represents.mono retains.grows

end Traces

/-! ## Graphs with declared joins -/

/-- A graph that is ready for the next path, and in which the vertex of every declared join hangs
off that of the source above. -/
structure Seated
    (context : PathContext)
    (tree : Tree)
    (types : NodeId -> Option String)
    (graph : JoinGraph) : Prop where
  ready : context.Ready tree types graph
  forest : graph.Forest
  hangs : ∀ {source declared id}, tree.join? source = some declared ->
    context.sources.find? source = some id ->
      ∃ parent, context.sources.find? declared.parent = some parent ∧ graph.HangsOff id parent

namespace Seated

theorem present (seated : context.Seated tree types graph) : context.Present graph := by
  intro source id declared
  obtain ⟨vertex, found, -⟩ := seated.ready.sound.described declared
  exact JoinGraph.lt_size_of_vertex? found

theorem of_steps
    {events : List GraphEvent}
    (seated : context.Seated tree types before)
    (ready : context.Ready tree types after)
    (steps : before.Steps events after) :
    context.Seated tree types after where
  ready := ready
  forest := steps.forest seated.forest
  hangs isJoin declared := by
    obtain ⟨parent, found, hangs⟩ := seated.hangs isJoin declared
    exact ⟨parent, found, (steps.retains seated.forest).hangsOff hangs⟩

theorem setUsed
    {source : NodeId}
    {id : VertexId}
    (seated : context.Seated tree types before)
    (declared : context.sources.find? source = some id) :
    context.Seated tree types (before.setUsed id) :=
  seated.of_steps (seated.ready.setUsed id) (steps_setUsed (seated.present declared))

/-- Compiling a route of a tree keeps what hangs off what, and leads through vertices that are
there. -/
theorem compileRoute
    {id : NodeId}
    {leaf selected : Bool}
    (seated : context.Seated tree types before)
    (leads : Route.Leads tree id route)
    (done : context.compileRoute route leaf selected before = .ok path after) :
    context.Seated tree types after ∧ before.Retains after ∧
      ∀ id ∈ path.vertices, ∃ vertex, after.vertex? id = some vertex := by
  obtain ⟨events, steps, -⟩ := compileRoute_accounts seated.forest seated.present route done
  obtain ⟨statement, staysIn⟩ := leads.exists_staysIn context.schema
  have stays := compileRoute_stays seated.ready.sound route staysIn done
  refine ⟨seated.of_steps (seated.ready.of_stays stays) steps, steps.retains seated.forest, ?_⟩
  intro vertex member
  obtain ⟨body, found, -⟩ := stays.path.belongs vertex member
  exact ⟨body, found⟩

/-- A relation that is navigated leads to a vertex that hangs off the one before. -/
theorem navigate
    {above id : VertexId}
    {name : String}
    (seated : context.Seated tree types before)
    (traces : context.Traces types before selected whole route path first further [])
    (present : ∃ vertex, before.vertex? above = some vertex)
    (leaf : path.leaf.vertex? = some above)
    (joined : context.implicitJoin above name before = .ok id after) :
    context.Traces types (after.setUsed id) selected whole (.field route name)
      (.toVertex id (some path)) first (further ++ [id]) [] := by
  obtain ⟨owner, ownerFound⟩ := present
  have steps := implicitJoin_steps seated.forest (JoinGraph.lt_size_of_vertex? ownerFound) joined
  have hangs := steps.hangsOff_of_mem seated.forest (List.mem_cons_of_mem _ List.mem_cons_self)
  obtain ⟨target, resolution, leads, resolved, rfl⟩ := implicitJoin_eq_ok.mp joined
  have leads : context.schema.relationTarget owner.recordType name = .ok target := by
    unfold Graphing.typeOf at leads
    rwa [ownerFound] at leads
  obtain ⟨-, -, vertex, found, -, named, -⟩ :=
    JoinGraph.resolve_spec ownerFound seated.ready.sound.coherent leads resolved
  obtain ⟨used, usedFound, -, same, -⟩ :=
    (JoinGraph.retouched_setUsed after resolution.id).grows resolution.id vertex found
  exact (traces.mono (steps.retains seated.forest)).navigate leaf hangs usedFound (same.trans named)

end Seated

/-! ## Routes that go on -/

/-- The type that is found for a route is its type. -/
theorem Ready.type?_of_recordType
    {type : String}
    (ready : context.Ready tree types before)
    (asked : context.recordType before route = .ok type) :
    route.type? context.schema types = some type := by
  have source {id : NodeId} {type : String}
      (asked : (do
        let vertex ← context.sourceVertex id
        return ((before.vertex? vertex).map Vertex.recordType).getD "" :
          Except CompileError String) = .ok type) : types id = some type := by
    cases sourceFound : context.sourceVertex id with
    | error error =>
        rw [sourceFound] at asked
        cases asked
    | ok vertex =>
        obtain ⟨body, found, typed⟩ := ready.sourceVertex (sourceVertex_eq_ok.mp sourceFound)
        rw [sourceFound] at asked
        change Except.ok (((before.vertex? vertex).map Vertex.recordType).getD "") = _ at asked
        rw [found] at asked
        cases asked
        exact typed
  induction route generalizing type with
  | origin id => exact source asked
  | join parent id relation direction _ => exact source asked
  | field parent name inductionHypothesis =>
      rw [PathContext.recordType] at asked
      cases parentAsked : context.recordType before parent with
      | error error =>
          rw [parentAsked] at asked
          cases asked
      | ok parentType =>
          rw [parentAsked] at asked
          obtain ⟨declared, found, leads⟩ := Schema.relationTarget_eq_ok.mp asked
          exact Route.type?_field_eq_some (inductionHypothesis parentAsked) found leads
  | treat target asType _ =>
      rw [PathContext.recordType] at asked
      cases required : context.schema.requireRecordType asType with
      | error error =>
          rw [required] at asked
          cases asked
      | ok declared =>
          rw [required] at asked
          cases asked
          rfl

/-- A source that a path goes on from has its vertex. -/
theorem leaf_of_compileRoute
    {id : NodeId}
    {body : Source}
    (leads : Route.Leads tree id route)
    (found : tree.node? id = some (.source body))
    (done : context.compileRoute route false false before = .ok path after) :
    path.leaf.vertex? = context.sources.find? id := by
  cases leads with
  | origin =>
      obtain ⟨vertex, declared, rfl, -⟩ := compileRoute_origin_eq_ok.mp done
      exact declared.symm
  | join =>
      obtain ⟨stands, asked, ⟨rfl, -⟩ | ⟨-, vertex, above, declared, -, rfl⟩⟩ :=
        compileRoute_join_eq_ok.mp done
      · cases asked
      · exact declared.symm
  | field again =>
      rw [found] at again
      cases again
  | treat again =>
      rw [found] at again
      cases again

/-- A declared join that is compiled to its edge leads to a vertex that hangs off the one
before. -/
theorem Seated.join
    {source parent : NodeId}
    {body : Source}
    {relation : String}
    {direction : JoinDirection}
    {mode : JoinMode}
    {on : Option NodeId}
    {id : VertexId}
    (seated : context.Seated tree types after)
    (found : tree.node? source = some (.source body))
    (isJoin : body.kind = .join parent relation direction mode on)
    (leads : Route.Leads tree parent route)
    (declared : context.sources.find? source = some id)
    (done : context.compileRoute route false false before = .ok path after)
    (traces : context.Traces types after selected whole route path first further []) :
    context.Traces types after selected whole (.join route source relation direction)
      (.toVertex id (some path)) first (further ++ [id]) [] := by
  have isDeclared : tree.join? source =
      some ⟨parent, relation, direction, mode, body.aliasHint, on⟩ :=
    Tree.join?_eq_some.mpr ⟨body, found, isJoin, rfl⟩
  obtain ⟨above, aboveDeclared, hangs⟩ := seated.hangs isDeclared declared
  obtain ⟨vertex, -, described⟩ := seated.ready.sound.described aboveDeclared
  obtain ⟨owner, ownerFound⟩ := described.exists_source
  have leaf := leaf_of_compileRoute leads ownerFound done
  exact traces.join (leaf.trans aboveDeclared) hangs declared relation direction

/-- A path that goes on leads down vertices alone. -/
theorem traces_of_passing
    {id : NodeId}
    (seated : context.Seated tree types before)
    (leads : Route.Leads tree id route)
    (done : context.compileRoute route false false before = .ok path after) :
    ∃ first further, ∀ selected whole,
      context.Traces types after selected whole route path first further [] := by
  induction leads generalizing before after path with
  | origin =>
      obtain ⟨vertex, declared, rfl, rfl⟩ := compileRoute_origin_eq_ok.mp done
      exact ⟨vertex, [], fun _ _ => .origin declared⟩
  | join found isJoin leads inductionHypothesis =>
      obtain ⟨stands, asked, ⟨rfl, -⟩ | ⟨-, vertex, above, declared, aboveDone, rfl⟩⟩ :=
        compileRoute_join_eq_ok.mp done
      · cases asked
      · have seatedUsed := seated.setUsed declared
        obtain ⟨first, further, traces⟩ := inductionHypothesis seatedUsed aboveDone
        obtain ⟨seatedAfter, -⟩ := seatedUsed.compileRoute leads aboveDone
        exact ⟨first, further ++ [vertex], fun selected whole =>
          seatedAfter.join found isJoin leads declared aboveDone (traces selected whole)⟩
  | field found leads inductionHypothesis =>
      -- Only the end of a path may collapse, so the field is navigated.
      obtain ⟨parentType, field, collapsed, between, -, -, attempt, rest⟩ :=
        compileRoute_field_eq_ok.mp done
      cases attempt
      obtain ⟨contrary, -⟩ | ⟨-, navigated⟩ := rest
      · cases contrary
      have result := navigateField_eq_ok.mp navigated
      split at result
      · obtain ⟨above, middle, owner, vertex, grown, aboveDone, leaf, joined, rfl, rfl⟩ := result
        obtain ⟨first, further, traces⟩ := inductionHypothesis seated aboveDone
        obtain ⟨seatedMiddle, -, present⟩ := seated.compileRoute leads aboveDone
        exact ⟨first, further ++ [vertex], fun selected whole =>
          seatedMiddle.navigate (traces selected whole)
            (present owner (CompiledPath.mem_vertices_of_leaf leaf)) leaf joined⟩
      · cases result.1
  | treat found leads inductionHypothesis =>
      obtain ⟨declared, inner, -, innerDone, rfl⟩ := compileRoute_treat_eq_ok.mp done
      obtain ⟨first, further, traces⟩ := inductionHypothesis seated innerDone
      exact ⟨first, further, fun selected whole => (traces selected whole).treat _⟩

/-! ## Routes that end -/

theorem Ready.keyed_of_standsForJoin
    {owner : Route}
    {relation : String}
    {direction : JoinDirection}
    (ready : context.Ready tree types before)
    (stands : context.standsForJoin owner relation direction before = .ok true after) :
    context.Keyed types owner relation direction := by
  obtain ⟨-, type, declared, typed, required, holds⟩ := standsForJoin_eq_ok.mp stands
  simp only [Field.isGuaranteedPresent, eq_comm (a := true), Bool.and_eq_true, Bool.or_eq_true,
    decide_eq_true_eq, Bool.not_eq_true'] at holds
  exact ⟨type, declared, ready.type?_of_recordType typed, Schema.requireField_eq_ok.mp required,
    holds⟩

/-- An identifier that is read over key columns ends a path with two fields at most. -/
theorem traces_of_collapse
    {id : NodeId}
    {parent : Route}
    {name type : String}
    {field : Field}
    {collapsed : Option CompiledPath}
    (seated : context.Seated tree types before)
    (leads : Route.Leads tree id parent)
    (typed : parent.type? context.schema types = some type)
    (found : context.schema.fieldOf? type name = some field)
    (isIdentifier : field.isIdentifier = true)
    (ends : whole.stripped = .field parent name)
    (done : context.collapseIdentifier parent name before = .ok collapsed after) :
    (collapsed = none ∧ after = before) ∨
      ∃ path first further names, collapsed = some path ∧
        context.Traces types after selected whole (.field parent name) path first further names ∧
        names.length ≤ 2 := by
  cases leads with
  | origin =>
      cases done
      exact Or.inl ⟨rfl, rfl⟩
  | join sourceFound isJoin leads =>
      obtain ⟨stands, asked, ⟨rfl, inner, innerDone, rfl⟩ | ⟨-, rfl, rfl⟩⟩ :=
        collapseIdentifier_join_eq_ok.mp done
      · obtain ⟨first, further, traces⟩ := traces_of_passing seated leads innerDone
        have keyed := seated.ready.keyed_of_standsForJoin asked
        exact Or.inr ⟨_, first, further, _, rfl,
          ((traces selected whole).key keyed
            (Or.inr ⟨name, type, field, ends, typed, found, isIdentifier⟩)).read name,
          Nat.le_refl 2⟩
      · exact Or.inl ⟨rfl, rfl⟩
  | field nodeFound leads =>
      obtain ⟨ownerType, relation, -, -, ⟨-, inner, innerDone, rfl⟩ | ⟨-, rfl, rfl⟩⟩ :=
        collapseIdentifier_field_eq_ok.mp done
      · obtain ⟨first, further, traces⟩ := traces_of_passing seated leads innerDone
        exact Or.inr ⟨_, first, further, _, rfl, ((traces selected whole).read _).read name,
          Nat.le_refl 2⟩
      · exact Or.inl ⟨rfl, rfl⟩
  | treat =>
      cases done
      exact Or.inl ⟨rfl, rfl⟩

/-- A field at the end of a path that no key column stands for is a vertex or the only field. -/
theorem traces_of_navigateField
    {id : NodeId}
    {parent : Route}
    {name type : String}
    {field : Field}
    (seated : context.Seated tree types before)
    (leads : Route.Leads tree id parent)
    (done : context.navigateField parent name type field true selected before = .ok path after) :
    ∃ first further names,
      context.Traces types after selected whole (.field parent name) path first further names ∧
        names.length ≤ 2 := by
  have result := navigateField_eq_ok.mp done
  split at result
  · obtain ⟨above, middle, owner, vertex, grown, aboveDone, leaf, joined, rfl, rfl⟩ := result
    obtain ⟨first, further, traces⟩ := traces_of_passing seated leads aboveDone
    obtain ⟨seatedMiddle, -, present⟩ := seated.compileRoute leads aboveDone
    exact ⟨first, further ++ [vertex], [],
      seatedMiddle.navigate (traces selected whole)
        (present owner (CompiledPath.mem_vertices_of_leaf leaf)) leaf joined, Nat.zero_le 2⟩
  · obtain ⟨-, above, aboveDone, rfl⟩ := result
    obtain ⟨first, further, traces⟩ := traces_of_passing seated leads aboveDone
    exact ⟨first, further, [name], (traces selected whole).read name, Nat.le_succ 1⟩

/-- A compiled path leads down vertices and then over at most two fields, and a field stands for
a declared join only at its end. -/
theorem traces_of_compileRoute
    {id : NodeId}
    (seated : context.Seated tree types before)
    (leads : Route.Leads tree id route)
    (ends : whole.stripped = route.stripped)
    (done : context.compileRoute route true selected before = .ok path after) :
    ∃ first further names,
      context.Traces types after selected whole route path first further names ∧
        names.length ≤ 2 := by
  -- Only treats are taken off here: below a join or a field the path goes on, so the rest of the
  -- route is `traces_of_passing`, and the whole route still ends where this one does.
  induction leads generalizing path with
  | origin =>
      obtain ⟨vertex, declared, rfl, rfl⟩ := compileRoute_origin_eq_ok.mp done
      exact ⟨vertex, [], [], .origin declared, Nat.zero_le 2⟩
  | @join source parent body relation direction mode on route found isJoin leads =>
      obtain ⟨stands, asked, ⟨rfl, above, aboveDone, rfl⟩ |
        ⟨-, vertex, above, declared, aboveDone, rfl⟩⟩ := compileRoute_join_eq_ok.mp done
      · obtain ⟨first, further, traces⟩ := traces_of_passing seated leads aboveDone
        cases selected with
        | true => cases asked
        | false =>
            have keyed := seated.ready.keyed_of_standsForJoin asked
            exact ⟨first, further, [relation],
              (traces false whole).key keyed (Or.inl ⟨ends, rfl⟩), Nat.le_succ 1⟩
      · have seatedUsed := seated.setUsed declared
        obtain ⟨first, further, traces⟩ := traces_of_passing seatedUsed leads aboveDone
        obtain ⟨seatedAfter, -⟩ := seatedUsed.compileRoute leads aboveDone
        exact ⟨first, further ++ [vertex], [],
          seatedAfter.join found isJoin leads declared aboveDone (traces selected whole),
          Nat.zero_le 2⟩
  | @field node parent name route found leads =>
      obtain ⟨type, field, collapsed, between, asked, required, attempt, rest⟩ :=
        compileRoute_field_eq_ok.mp done
      have attempted : (collapsed = none ∧ between = before) ∨
          ∃ path first further names, collapsed = some path ∧
            context.Traces types between selected whole (.field route name) path first further
              names ∧ names.length ≤ 2 := by
        unfold attemptField at attempt
        split at attempt
        · next mayCollapse =>
            rw [Bool.true_and] at mayCollapse
            exact traces_of_collapse seated leads (seated.ready.type?_of_recordType asked)
              (Schema.requireField_eq_ok.mp required) mayCollapse ends attempt
        · cases attempt
          exact Or.inl ⟨rfl, rfl⟩
      rcases rest with ⟨rfl, rfl⟩ | ⟨rfl, navigated⟩
      · rcases attempted with ⟨contrary, -⟩ | ⟨_, first, further, names, same, traces, short⟩
        · cases contrary
        · cases same
          exact ⟨first, further, names, traces, short⟩
      · rcases attempted with ⟨-, rfl⟩ | ⟨_, _, _, _, contrary, -⟩
        · exact traces_of_navigateField seated leads navigated
        · cases contrary
  | treat found leads inductionHypothesis =>
      obtain ⟨declared, inner, -, innerDone, rfl⟩ := compileRoute_treat_eq_ok.mp done
      obtain ⟨first, further, names, traces, short⟩ := inductionHypothesis ends innerDone
      exact ⟨first, further, names, traces.treat _, short⟩

/-- Each of the paths that are compiled one after the other is compiled in a graph that is kept
from then on. -/
theorem seated_of_compilePaths
    {identities : List PathIdentity}
    {paths : List (PathIdentity × CompiledPath)}
    (seated : context.Seated tree types before)
    (leads : ∀ identity ∈ identities, ∃ route, Route.Leads tree identity.node route ∧
      tree.route identity.node = .ok route)
    (done : context.compilePaths tree identities before = .ok paths after) :
    before.Retains after ∧ context.Seated tree types after ∧
      ∀ identity path, (identity, path) ∈ paths -> identity ∈ identities ∧
        ∃ route between later, tree.route identity.node = .ok route ∧
          Route.Leads tree identity.node route ∧ context.Seated tree types between ∧
          context.compileRoute route true identity.isDirectlySelected between = .ok path later ∧
          later.Retains after := by
  induction identities generalizing before paths with
  | nil =>
      cases done
      exact ⟨.refl _, seated, fun identity path member => by cases member⟩
  | cons identity identities inductionHypothesis =>
      obtain ⟨path, between, rest, pathDone, restDone, rfl⟩ := compilePaths_cons_eq_ok.mp done
      obtain ⟨route, routeFound, routeDone⟩ := compilePath_eq_ok.mp pathDone
      obtain ⟨again, routeLeads, againFound⟩ := leads identity List.mem_cons_self
      rw [routeFound] at againFound
      cases againFound
      obtain ⟨seatedBetween, retains, -⟩ := seated.compileRoute routeLeads routeDone
      obtain ⟨later, seatedAfter, others⟩ := inductionHypothesis seatedBetween
        (fun other member => leads other (List.mem_cons_of_mem _ member)) restDone
      refine ⟨retains.trans later, seatedAfter, fun other found member => ?_⟩
      rcases List.mem_cons.mp member with same | further
      · cases same
        exact ⟨List.mem_cons_self, route, before, between, routeFound, routeLeads, seated,
          routeDone, later⟩
      · obtain ⟨listed, rest⟩ := others other found further
        exact ⟨List.mem_cons_of_mem _ listed, rest⟩

/-- All paths that are compiled one after the other represent their routes in the graph that they
leave. -/
theorem traces_of_compilePaths
    {identities : List PathIdentity}
    {paths : List (PathIdentity × CompiledPath)}
    (seated : context.Seated tree types before)
    (leads : ∀ identity ∈ identities, ∃ route, Route.Leads tree identity.node route ∧
      tree.route identity.node = .ok route)
    (done : context.compilePaths tree identities before = .ok paths after) :
    before.Retains after ∧ context.Seated tree types after ∧
      ∀ identity path, (identity, path) ∈ paths -> identity ∈ identities ∧
        ∃ route first further names, tree.route identity.node = .ok route ∧
          Route.Leads tree identity.node route ∧
          context.Traces types after identity.isDirectlySelected route route path first further
            names ∧ names.length ≤ 2 := by
  obtain ⟨retains, seatedAfter, each⟩ := seated_of_compilePaths seated leads done
  refine ⟨retains, seatedAfter, fun identity path member => ?_⟩
  obtain ⟨listed, route, between, later, found, routeLeads, seatedBetween, routeDone, kept⟩ :=
    each identity path member
  obtain ⟨first, further, names, traces, short⟩ :=
    traces_of_compileRoute seatedBetween routeLeads rfl routeDone
  exact ⟨listed, route, first, further, names, found, routeLeads, traces.mono kept, short⟩

end PathContext
end QueryGraph
