import QueryGraph.Proofs.Graph.Refusal
import QueryGraph.Proofs.Path.Blame

/-!
# Why paths are refused

A path whose sources are declared is refused only for a look-up in the schema: what it goes through
is joined before it goes on, and what it joins for itself is never refused.
-/

namespace QueryGraph

open Operation
open CompileError (FailsLookup)

/-- All sources on a route are declared. -/
def Route.Declared
    (route : Route)
    (sources : DeclarationMap) : Prop :=
  ∀ source ∈ route.sources, ∃ vertex, sources.find? source = some vertex

namespace PathContext

variable {context : PathContext} {before : JoinGraph}

/-! ## The type of a route -/

/-- A declared source has a type. -/
theorem exists_sourceType
    {source : NodeId}
    {vertex : VertexId}
    (declared : context.sources.find? source = some vertex) :
    ∃ type, (do
      let vertex ← context.sourceVertex source
      return ((before.vertex? vertex).map Vertex.recordType).getD "" :
        Except CompileError String) = .ok type := by
  rw [sourceVertex_eq_ok.mpr declared]
  exact ⟨_, rfl⟩

/-- The type of a route over declared sources is missing only where the schema is. -/
theorem failsLookup_of_recordType
    {route : Route}
    {error : CompileError}
    (declared : route.Declared context.sources)
    (refused : context.recordType before route = .error error) :
    error.FailsLookup := by
  have typed {source : NodeId} (onRoute : source ∈ route.sources) :
      ∃ type, (do
        let vertex ← context.sourceVertex source
        return ((before.vertex? vertex).map Vertex.recordType).getD "" :
          Except CompileError String) = .ok type := by
    obtain ⟨vertex, found⟩ := declared source onRoute
    exact exists_sourceType found
  induction route with
  | origin source =>
      obtain ⟨type, found⟩ := typed List.mem_cons_self
      cases found.symm.trans refused
  | join parent source field direction _ =>
      obtain ⟨type, found⟩ := typed List.mem_cons_self
      cases found.symm.trans refused
  | field parent name inductionHypothesis =>
      unfold recordType at refused
      cases above : context.recordType before parent with
      | error fault =>
          rw [above] at refused
          cases refused
          exact inductionHypothesis declared above typed
      | ok type =>
          rw [above] at refused
          exact Schema.failsLookup_of_relationTarget refused
  | treat target asType _ =>
      unfold recordType at refused
      cases required : context.schema.requireRecordType asType with
      | error fault =>
          rw [required] at refused
          cases refused
          exact Schema.failsLookup_of_requireRecordType required
      | ok found =>
          rw [required] at refused
          cases refused

/-- The type of a route and one of its fields are found, or the schema is to blame. -/
theorem refusal_requireField
    {route : Route}
    {name : String}
    {rest : String -> Field -> PathCompiling α}
    {fact : α -> JoinGraph -> Prop}
    (declared : route.Declared context.sources)
    (goes : ∀ type field, Ends fact FailsLookup (rest type field before)) :
    Ends fact FailsLookup ((do
      let type ← PathCompiling.require (context.recordType (← get) route)
      let field ← PathCompiling.require (context.schema.requireField type name)
      rest type field) before) := by
  refine Ends.bind_ok (get_apply before) (Ends.bind (PathCompiling.ends_require ?_ ?_))
  · intro type _
    exact Ends.bind (PathCompiling.ends_require (fun field _ => goes type field)
      fun error refused => Schema.failsLookup_of_requireField refused)
  · exact fun error refused => failsLookup_of_recordType declared refused

theorem refusal_standsForJoin
    {owner : Route}
    {field : String}
    {direction : JoinDirection}
    (declared : owner.Declared context.sources) :
    Ends (fun _ _ => True) FailsLookup
      (context.standsForJoin owner field direction before) :=
  refusal_requireField declared fun _ _ => trivial

/-! ## Implicit joins -/

/-- Navigation is refused for the schema alone, on any graph. -/
theorem refusal_implicitJoin
    (parent : VertexId)
    (name : String) :
    Ends (fun _ _ => True) FailsLookup (context.implicitJoin parent name before) := by
  unfold implicitJoin
  refine Ends.bind_ok (get_apply before) (Ends.bind (PathCompiling.ends_require ?_ ?_))
  · intro target _
    obtain ⟨resolution, after, resolved⟩ :=
      JoinGraph.exists_resolve_implicit before parent name target
    exact Ends.bind_ok resolved trivial
  · exact fun error refused => Schema.failsLookup_of_relationTarget refused

/-! ## Compiling -/

/-- A path that goes on ends at a vertex. -/
def Anchors
    (leaf : Bool)
    (path : CompiledPath)
    (_ : JoinGraph) : Prop :=
  leaf = false -> ∃ id, path.leaf.vertex? = some id

theorem ends_toVertex
    {leaf : Bool}
    (id : VertexId)
    (above : Option CompiledPath) :
    Ends (Anchors leaf) FailsLookup
      ((pure (.toVertex id above) : PathCompiling CompiledPath) before) :=
  fun _ => ⟨id, rfl⟩

theorem refusal_navigateField
    {parent : Route}
    {name parentType : String}
    {field : Field}
    {leaf selected : Bool}
    (compiles : Ends (Anchors false) FailsLookup
      (context.compileRoute parent false false before)) :
    Ends (Anchors leaf) FailsLookup
      (context.navigateField parent name parentType field leaf selected before) := by
  unfold navigateField
  split
  · refine Ends.bind (compiles.imp ?_ fun _ same => same)
    intro path middle anchored
    obtain ⟨above, owner⟩ := anchored rfl
    simp only [owner]
    refine Ends.bind ((refusal_implicitJoin above name).imp ?_ fun _ same => same)
    exact fun id grown _ => Ends.bind_ok rfl (ends_toVertex id _)
  · cases leaf with
    | false => exact .navigation parentType name nofun
    | true =>
        refine Ends.bind (compiles.imp ?_ fun _ same => same)
        exact fun path after _ contrary => by cases contrary

/-- The end of a join whose owner compiles on every graph. -/
theorem refusal_belowOwner
    {owner : Route}
    {source : NodeId}
    {vertex : VertexId}
    {leaf : Bool}
    (declared : context.sources.find? source = some vertex)
    (compiles : ∀ {middle : JoinGraph}, Ends (Anchors false) FailsLookup
      (context.compileRoute owner false false middle)) :
    Ends (Anchors leaf) FailsLookup ((do
      let vertex ← PathCompiling.require (context.sourceVertex source)
      PathCompiling.use vertex
      return CompiledPath.toVertex vertex (some (← context.compileRoute owner false false)) :
        PathCompiling CompiledPath) before) := by
  rw [sourceVertex_eq_ok.mpr declared]
  refine Ends.bind_ok rfl (Ends.bind_ok rfl (Ends.bind (compiles.imp ?_ fun _ same => same)))
  exact fun above after _ => ends_toVertex vertex _

mutual

/-- A route over declared sources is refused for the schema alone, and where it goes on it ends at
a vertex. -/
theorem refusal_compileRoute
    {before : JoinGraph}
    (leaf selected : Bool) :
    (route : Route) -> route.Declared context.sources ->
    Ends (Anchors leaf) FailsLookup (context.compileRoute route leaf selected before)
  | .origin source, declared => by
      obtain ⟨vertex, found⟩ := declared source List.mem_cons_self
      rw [compileRoute, sourceVertex_eq_ok.mpr found]
      exact Ends.bind_ok rfl (Ends.bind_ok rfl (ends_toVertex vertex none))
  | .join parent source field direction, declared => by
      have above : parent.Declared context.sources := fun other member =>
        declared other (List.mem_cons_of_mem _ member)
      obtain ⟨vertex, found⟩ := declared source List.mem_cons_self
      have compiles {middle : JoinGraph} : Ends (Anchors false) FailsLookup
          (context.compileRoute parent false false middle) :=
        refusal_compileRoute false false parent above
      rw [compileRoute]
      cases leaf with
      | false => exact refusal_belowOwner found compiles
      | true =>
          cases selected with
          | true => exact refusal_belowOwner found compiles
          | false =>
              refine Ends.bind ((refusal_standsForJoin above).imp ?_ fun _ same => same)
              intro stands middle _
              cases stands with
              | false => exact refusal_belowOwner found compiles
              | true =>
                  refine Ends.bind (compiles.imp ?_ fun _ same => same)
                  exact fun path after _ contrary => by cases contrary
  | .field parent name, declared => by
      have compiles {middle : JoinGraph} : Ends (Anchors false) FailsLookup
          (context.compileRoute parent false false middle) :=
        refusal_compileRoute false false parent declared
      rw [compileRoute_field]
      refine refusal_requireField declared fun parentType field => ?_
      have attempts : Ends (fun collapsed _ => collapsed.isSome = true -> leaf = true)
          FailsLookup (context.attemptField parent name field leaf before) := by
        unfold attemptField
        cases leaf with
        | false => exact fun contrary => by cases contrary
        | true =>
            cases field.isIdentifier with
            | false => exact fun contrary => by cases contrary
            | true =>
                exact (refusal_collapseIdentifier name parent declared).imp (fun _ _ _ _ => rfl)
                  fun _ same => same
      refine Ends.bind (attempts.imp ?_ fun _ same => same)
      intro collapsed between atEnd
      cases collapsed with
      | some path =>
          intro contrary
          rw [atEnd rfl] at contrary
          cases contrary
      | none => exact refusal_navigateField compiles
  | .treat target asType, declared => by
      rw [compileRoute]
      refine Ends.bind (PathCompiling.ends_require (fun found _ => ?_) fun error refused =>
        Schema.failsLookup_of_requireRecordType refused)
      refine Ends.bind ((refusal_compileRoute leaf selected target declared).imp ?_
        fun _ same => same)
      exact fun path after anchored => anchored

theorem refusal_collapseIdentifier
    {before : JoinGraph}
    (identifier : String) :
    (parent : Route) -> parent.Declared context.sources ->
    Ends (fun _ _ => True) FailsLookup
      (context.collapseIdentifier parent identifier before)
  | .origin source, _ => by
      rw [collapseIdentifier]
      trivial
  | .join owner source field direction, declared => by
      have above : owner.Declared context.sources := fun other member =>
        declared other (List.mem_cons_of_mem _ member)
      rw [collapseIdentifier]
      refine Ends.bind ((refusal_standsForJoin above).imp ?_ fun _ same => same)
      intro stands middle _
      cases stands with
      | false => trivial
      | true =>
          refine Ends.bind ((refusal_compileRoute false false owner above).imp ?_
            fun _ same => same)
          exact fun path after _ => trivial
  | .field owner name, declared => by
      rw [collapseIdentifier]
      refine refusal_requireField declared fun ownerType relation => ?_
      split
      · refine Ends.bind ((refusal_compileRoute false false owner declared).imp ?_
          fun _ same => same)
        exact fun path after _ => trivial
      · trivial
  | .treat target asType, _ => by
      rw [collapseIdentifier]
      trivial

end

/-- Paths over declared sources are refused for the schema alone. -/
theorem refusal_compilePaths
    {tree : Tree}
    {identities : List PathIdentity}
    (routes : ∀ identity ∈ identities, ∃ route, tree.route identity.node = .ok route ∧
      route.Declared context.sources) :
    Ends (fun _ _ => True) FailsLookup
      (context.compilePaths tree identities before) := by
  unfold compilePaths
  refine Ends.mapM (fun _ => True) ?_ trivial
  intro identity member graph _
  obtain ⟨route, read, declared⟩ := routes identity member
  unfold compilePath
  rw [read]
  refine Ends.bind (Ends.bind_ok rfl ((refusal_compileRoute true identity.isDirectlySelected route
    declared).imp ?_ fun _ same => same))
  exact fun path after _ => trivial

end PathContext
end QueryGraph
