import QueryGraph.Proofs.Graph.Typed
import QueryGraph.Proofs.Path.History

/-!
# Compiling paths on a typed graph

A compiled path leaves a typed graph when the schema is closed. It is refused with an unknown
record type only for one that a treat on its route names.
-/

namespace QueryGraph

open Operation

namespace PathCompiling

theorem ends_require
    {result : Except CompileError α}
    {before : JoinGraph}
    {fact : α -> JoinGraph -> Prop}
    {fault : CompileError -> Prop}
    (facts : ∀ value, result = .ok value -> fact value before)
    (faults : ∀ error, result = .error error -> fault error) :
    Ends fact fault (require result before) := by
  cases result with
  | ok value => exact facts value rfl
  | error error => exact faults error rfl

end PathCompiling

namespace PathContext

variable {context : PathContext} {before : JoinGraph} {names : String -> Prop}

theorem blames_sourceVertex
    {source : NodeId}
    {error : CompileError}
    (refused : context.sourceVertex source = .error error) :
    error.Blames names := by
  unfold sourceVertex at refused
  cases found : context.sources.find? source with
  | some vertex =>
      rw [found] at refused
      cases refused
  | none =>
      rw [found] at refused
      cases refused
      rintro _ ⟨⟩

/-! ## The type of a route -/

/-- The type of a declared source is a record type of the schema. -/
theorem sourceType_cases
    (typed : before.Typed context.schema)
    (present : context.Present before)
    (source : NodeId) :
    let result : Except CompileError String := do
      let vertex ← context.sourceVertex source
      return ((before.vertex? vertex).map Vertex.recordType).getD ""
    (∀ type, result = .ok type -> context.schema.Declares type) ∧
      ∀ error, result = .error error -> error.Blames names := by
  cases found : context.sourceVertex source with
  | error fault =>
      refine ⟨fun type contrary => (by cases contrary), fun error refused => ?_⟩
      cases refused
      exact blames_sourceVertex found
  | ok vertex =>
      refine ⟨fun type same => ?_, fun error contrary => (by cases contrary)⟩
      cases same
      exact typed.declares_typeOf (present (sourceVertex_eq_ok.mp found))

/-- The type that a route leads to is a record type of the schema, and a failure to find it is
due to a treat. -/
theorem recordType_cases
    (closed : context.schema.Closed)
    (typed : before.Typed context.schema)
    (present : context.Present before)
    (route : Route) :
    (∀ type, context.recordType before route = .ok type -> context.schema.Declares type) ∧
      ∀ error, context.recordType before route = .error error ->
        error.Blames (· ∈ route.treats) := by
  induction route with
  | origin source => exact sourceType_cases typed present source
  | join parent source field direction _ => exact sourceType_cases typed present source
  | field parent name inductionHypothesis =>
      obtain ⟨declares, blames⟩ := inductionHypothesis
      unfold recordType
      cases above : context.recordType before parent with
      | error fault =>
          refine ⟨fun type contrary => (by cases contrary), fun error refused => ?_⟩
          cases refused
          exact blames _ above
      | ok type =>
          exact ⟨fun target leads => closed _ _ _ leads,
            fun error refused => Schema.blames_relationTarget (declares _ above) refused⟩
  | treat target asType _ =>
      unfold recordType
      cases required : context.schema.requireRecordType asType with
      | error fault =>
          refine ⟨fun type contrary => (by cases contrary), fun error refused => ?_⟩
          cases refused
          exact Schema.blames_requireRecordType required List.mem_cons_self
      | ok declared =>
          refine ⟨fun type same => ?_, fun error contrary => (by cases contrary)⟩
          cases same
          exact ⟨declared, Schema.requireRecordType_eq_ok.mp required⟩

/-- The type of a route and one of its fields are found, or a treat on the route is to blame. -/
theorem ends_requireField
    {route : Route}
    {name : String}
    {rest : String -> Field -> PathCompiling α}
    {fact : α -> JoinGraph -> Prop}
    (closed : context.schema.Closed)
    (typed : before.Typed context.schema)
    (present : context.Present before)
    (blamed : ∀ name ∈ route.treats, names name)
    (goes : ∀ type field, context.schema.requireField type name = .ok field ->
      Ends fact (·.Blames names) (rest type field before)) :
    Ends fact (·.Blames names) ((do
      let type ← PathCompiling.require (context.recordType (← get) route)
      let field ← PathCompiling.require (context.schema.requireField type name)
      rest type field) before) := by
  obtain ⟨declares, blames⟩ := recordType_cases closed typed present route
  refine Ends.bind_ok (get_apply before) (Ends.bind (PathCompiling.ends_require ?_ ?_))
  · intro type found
    refine Ends.bind (PathCompiling.ends_require (goes type) fun error refused => ?_)
    exact Schema.blames_requireField (declares type found) refused
  · exact fun error refused name same => blamed name (blames error refused name same)

/-- A question about a join changes nothing. -/
theorem ends_standsForJoin
    {owner : Route}
    {field : String}
    {direction : JoinDirection}
    (closed : context.schema.Closed)
    (typed : before.Typed context.schema)
    (present : context.Present before)
    (blamed : ∀ name ∈ owner.treats, names name) :
    Ends (fun _ after => after = before) (·.Blames names)
      (context.standsForJoin owner field direction before) :=
  ends_requireField closed typed present blamed fun _ _ _ => rfl

/-! ## Compiling -/

/-- What the compilation of a path leaves: a typed graph with all that was there, and with the
vertex at which the path ends. -/
structure LeavesTyped
    (context : PathContext)
    (before : JoinGraph)
    (path : CompiledPath)
    (after : JoinGraph) : Prop where
  typed : after.Typed context.schema
  larger : before.size ≤ after.size
  leaf : ∀ {id}, path.leaf.vertex? = some id -> id.index < after.size

theorem Present.of_size_le
    {after : JoinGraph}
    (present : context.Present before)
    (larger : before.size ≤ after.size) :
    context.Present after :=
  fun found => Nat.lt_of_lt_of_le (present found) larger

/-- A vertex that is referred to. -/
theorem leavesTyped_use
    {middle : JoinGraph}
    {id : VertexId}
    {above : Option CompiledPath}
    (typed : middle.Typed context.schema)
    (larger : before.size ≤ middle.size)
    (present : id.index < middle.size) :
    context.LeavesTyped before (.toVertex id above) (middle.setUsed id) where
  typed := (JoinGraph.retouched_setUsed middle id).typed typed
  larger := Nat.le_trans larger (JoinGraph.retouched_setUsed middle id).grows.size_le
  leaf same := by
    cases same
    exact (JoinGraph.retouched_setUsed middle id).grows.lt_size present

theorem ends_implicitJoin
    {owner : VertexId}
    {name : String}
    (closed : context.schema.Closed)
    (typed : before.Typed context.schema)
    (older : owner.index < before.size) :
    Ends (fun id after => after.Typed context.schema ∧ before.size ≤ after.size ∧
        id.index < after.size)
      (·.Blames names) (context.implicitJoin owner name before) := by
  unfold implicitJoin
  refine Ends.bind_ok (get_apply before) (Ends.bind (PathCompiling.ends_require ?_ ?_))
  · intro target leads
    exact Ends.bind (JoinGraph.ends_resolve closed typed older leads)
  · intro error refused
    exact Schema.blames_relationTarget (typed.declares_typeOf older) refused

/-- What an attempt to collapse leaves. A collapsed path ends at a field. -/
structure Collapses
    (context : PathContext)
    (before : JoinGraph)
    (collapsed : Option CompiledPath)
    (after : JoinGraph) : Prop where
  typed : after.Typed context.schema
  larger : before.size ≤ after.size
  leaf : ∀ {path}, collapsed = some path -> path.leaf.vertex? = none

theorem ends_attemptField
    {parent : Route}
    {name : String}
    {field : Field}
    {leaf : Bool}
    (typed : before.Typed context.schema)
    (collapses : Ends (context.Collapses before) (·.Blames names)
      (context.collapseIdentifier parent name before)) :
    Ends (context.Collapses before) (·.Blames names)
      (context.attemptField parent name field leaf before) := by
  unfold attemptField
  cases leaf && field.isIdentifier with
  | true => exact collapses
  | false => exact ⟨typed, Nat.le_refl _, fun contrary => by cases contrary⟩

theorem ends_navigateField
    {parent : Route}
    {name parentType : String}
    {field : Field}
    {leaf selected : Bool}
    (closed : context.schema.Closed)
    (compiles : Ends (context.LeavesTyped before) (·.Blames names)
      (context.compileRoute parent false false before)) :
    Ends (context.LeavesTyped before) (·.Blames names)
      (context.navigateField parent name parentType field leaf selected before) := by
  unfold navigateField
  split
  · refine Ends.bind (compiles.imp ?_ fun _ same => same)
    intro path middle reaches
    cases owner : path.leaf.vertex? with
    | none =>
        rintro _ ⟨⟩
    | some above =>
        refine Ends.bind ((ends_implicitJoin closed reaches.typed (reaches.leaf owner)).imp ?_
          fun _ same => same)
        rintro id grown ⟨typed, larger, present⟩
        exact Ends.bind_ok rfl (leavesTyped_use typed (Nat.le_trans reaches.larger larger) present)
  · split
    · rintro _ ⟨⟩
    · refine Ends.bind (compiles.imp ?_ fun _ same => same)
      exact fun path after reaches =>
        ⟨reaches.typed, reaches.larger, fun contrary => by cases contrary⟩

/-- The end of a join whose owner compiles from every typed graph. -/
theorem ends_belowOwner
    (owner : Route)
    (source : NodeId)
    (typed : before.Typed context.schema)
    (present : context.Present before)
    (compiles : ∀ {middle : JoinGraph}, middle.Typed context.schema -> context.Present middle ->
      Ends (context.LeavesTyped middle) (·.Blames names)
        (context.compileRoute owner false false middle)) :
    Ends (context.LeavesTyped before) (·.Blames names) ((do
      let vertex ← PathCompiling.require (context.sourceVertex source)
      PathCompiling.use vertex
      return CompiledPath.toVertex vertex (some (← context.compileRoute owner false false)) :
        PathCompiling CompiledPath) before) := by
  refine Ends.bind (PathCompiling.ends_require (fun vertex found => ?_) fun error =>
    blames_sourceVertex)
  have below := present (sourceVertex_eq_ok.mp found)
  have used : context.LeavesTyped before (.toVertex vertex none) (before.setUsed vertex) :=
    leavesTyped_use typed (Nat.le_refl _) below
  refine Ends.bind_ok rfl (Ends.bind ((compiles used.typed
    (present.of_size_le used.larger)).imp ?_ fun _ same => same))
  intro above after reaches
  have grown := Nat.le_trans used.larger reaches.larger
  refine ⟨reaches.typed, grown, fun same => ?_⟩
  cases same
  exact Nat.lt_of_lt_of_le below grown

mutual

/-- Compiling a route leaves a typed graph. -/
theorem ends_compileRoute
    {before : JoinGraph}
    (closed : context.schema.Closed)
    (typed : before.Typed context.schema)
    (present : context.Present before)
    (leaf selected : Bool) :
    (route : Route) -> (∀ name ∈ route.treats, names name) ->
    Ends (context.LeavesTyped before) (·.Blames names)
      (context.compileRoute route leaf selected before)
  | .origin source, _ => by
      rw [compileRoute]
      refine Ends.bind (PathCompiling.ends_require (fun vertex found => ?_) fun error =>
        blames_sourceVertex)
      exact Ends.bind_ok rfl
        (leavesTyped_use typed (Nat.le_refl _) (present (sourceVertex_eq_ok.mp found)))
  | .join parent source field direction, blamed => by
      have atEnd := ends_belowOwner parent source typed present
        fun typed present => ends_compileRoute closed typed present false false parent blamed
      rw [compileRoute]
      cases leaf && !selected with
      | false => exact atEnd
      | true =>
          have asked : Ends (fun _ after => after = before) (·.Blames names)
              (context.standsForJoin parent field direction before) :=
            ends_standsForJoin closed typed present blamed
          refine Ends.bind (asked.imp ?_ fun _ same => same)
          rintro stands _ rfl
          cases stands with
          | false => exact atEnd
          | true =>
              refine Ends.bind ((ends_compileRoute closed typed present false false parent
                blamed).imp ?_ fun _ same => same)
              exact fun above after reaches =>
                ⟨reaches.typed, reaches.larger, fun contrary => by cases contrary⟩
  | .field parent name, blamed => by
      rw [compileRoute_field]
      refine ends_requireField closed typed present blamed fun parentType field required => ?_
      refine Ends.bind ((ends_attemptField typed (ends_collapseIdentifier closed typed present name
        parent blamed)).imp ?_ fun _ same => same)
      intro collapsed between collapses
      cases collapsed with
      | some path =>
          refine ⟨collapses.typed, collapses.larger, fun same => ?_⟩
          rw [collapses.leaf rfl] at same
          cases same
      | none =>
          have compiles := ends_compileRoute closed collapses.typed
            (present.of_size_le collapses.larger) false false parent blamed
          refine (ends_navigateField closed compiles).imp ?_ fun _ same => same
          exact fun path after reaches =>
            ⟨reaches.typed, Nat.le_trans collapses.larger reaches.larger, reaches.leaf⟩
  | .treat target asType, blamed => by
      rw [compileRoute]
      refine Ends.bind (PathCompiling.ends_require (fun declared found => ?_) fun error refused =>
        Schema.blames_requireRecordType refused (blamed asType List.mem_cons_self))
      refine Ends.bind ((ends_compileRoute closed typed present leaf selected target fun name member =>
        blamed name (List.mem_cons_of_mem _ member)).imp ?_ fun _ same => same)
      exact fun path after reaches => ⟨reaches.typed, reaches.larger, reaches.leaf⟩

theorem ends_collapseIdentifier
    {before : JoinGraph}
    (closed : context.schema.Closed)
    (typed : before.Typed context.schema)
    (present : context.Present before)
    (identifier : String) :
    (parent : Route) -> (∀ name ∈ parent.treats, names name) ->
    Ends (context.Collapses before) (·.Blames names)
      (context.collapseIdentifier parent identifier before)
  | .origin source, _ => by
      rw [collapseIdentifier]
      exact ⟨typed, Nat.le_refl _, fun contrary => by cases contrary⟩
  | .join owner source field direction, blamed => by
      have asked : Ends (fun _ after => after = before) (·.Blames names)
          (context.standsForJoin owner field direction before) :=
        ends_standsForJoin closed typed present blamed
      rw [collapseIdentifier]
      refine Ends.bind (asked.imp ?_ fun _ same => same)
      rintro stands _ rfl
      cases stands with
      | false => exact ⟨typed, Nat.le_refl _, fun contrary => by cases contrary⟩
      | true =>
          refine Ends.bind ((ends_compileRoute closed typed present false false owner blamed).imp ?_
            fun _ same => same)
          exact fun path after reaches => ⟨reaches.typed, reaches.larger, fun same => by
            cases same
            rfl⟩
  | .field owner name, blamed => by
      rw [collapseIdentifier]
      refine ends_requireField closed typed present blamed fun ownerType relation _ => ?_
      split
      · refine Ends.bind ((ends_compileRoute closed typed present false false owner blamed).imp ?_
          fun _ same => same)
        exact fun path after reaches => ⟨reaches.typed, reaches.larger, fun same => by
          cases same
          rfl⟩
      · exact ⟨typed, Nat.le_refl _, fun contrary => by cases contrary⟩
  | .treat target asType, _ => by
      rw [collapseIdentifier]
      exact ⟨typed, Nat.le_refl _, fun contrary => by cases contrary⟩

end

/-- Compiled paths leave a typed graph. A treat of the tree is to blame for an unknown record
type. -/
theorem ends_compilePaths
    {tree : Tree}
    {identities : List PathIdentity}
    (closed : context.schema.Closed)
    (typed : before.Typed context.schema)
    (present : context.Present before)
    (blamed : ∀ {node target name}, tree.node? node = some (.treat target name) -> names name) :
    Ends (fun _ after => after.Typed context.schema ∧ before.size ≤ after.size) (·.Blames names)
      (context.compilePaths tree identities before) := by
  unfold compilePaths
  refine Ends.mapM
    (fun graph : JoinGraph => graph.Typed context.schema ∧ before.size ≤ graph.size) ?_
    ⟨typed, Nat.le_refl _⟩
  rintro identity - graph ⟨graphTyped, larger⟩
  unfold compilePath
  refine Ends.bind (Ends.bind (PathCompiling.ends_require (fun route found => ?_) ?_))
  · have leads := Route.leads_of_ofNode (Operation.mapError_eq_ok.mp found)
    refine (ends_compileRoute closed graphTyped (present.of_size_le larger) true
      identity.isDirectlySelected route fun name member => ?_).imp ?_ fun _ same => same
    · obtain ⟨node, target, treats⟩ := leads.treated member
      exact blamed treats
    · exact fun path after reaches => ⟨reaches.typed, Nat.le_trans larger reaches.larger⟩
  · intro error refused
    cases read : tree.route identity.node with
    | ok route =>
        rw [read] at refused
        cases refused
    | error fault =>
        rw [read] at refused
        cases refused
        rintro _ ⟨⟩

end PathContext
end QueryGraph
