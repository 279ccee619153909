import QueryGraph.Proofs.Graph.Prunes
import QueryGraph.Proofs.Path.Route
import QueryGraph.Proofs.Path.Steps

/-!
# Compiling paths with and without trust in the schema

A trusted schema only allows a key column to stand for a join that needs one otherwise. Whether
a join is made, and of which vertices, does not depend on it: without trust the vertex of a
declared source is used in addition, and everything else happens in the same order.
-/

namespace QueryGraph

open Operation

namespace PathCompiling

variable {pruned full : JoinGraph}

theorem alike_require
    (prunes : pruned.Prunes full)
    (result : Except CompileError α) :
    Alike Eq JoinGraph.Prunes (require result pruned) (require result full) := by
  cases result with
  | ok value => exact ⟨rfl, prunes⟩
  | error error => rfl

theorem alike_use
    (prunes : pruned.Prunes full)
    (id : VertexId) :
    Alike Eq JoinGraph.Prunes (use id pruned) (use id full) :=
  ⟨rfl, prunes.setUsed id⟩

end PathCompiling

namespace PathContext

/-- The same context, in which the schema is trusted or not. -/
def trusting (context : PathContext) (strict : Bool) : PathContext :=
  { context with strictSchema := strict }

variable {context : PathContext} {pruned full : JoinGraph}

theorem recordType_trusting
    (prunes : pruned.Prunes full)
    (strict other : Bool)
    (route : Route) :
    (context.trusting strict).recordType pruned route =
      (context.trusting other).recordType full route := by
  have typeOf : ∀ source,
      (do
        let vertex ← (context.trusting strict).sourceVertex source
        return ((pruned.vertex? vertex).map Vertex.recordType).getD "" :
          Except CompileError String) = (do
        let vertex ← (context.trusting other).sourceVertex source
        return ((full.vertex? vertex).map Vertex.recordType).getD "") := by
    intro source
    refine bind_congr fun vertex => ?_
    exact congrArg pure (prunes.typeOf_eq vertex)
  induction route with
  | origin source => exact typeOf source
  | join parent source field direction _ => exact typeOf source
  | field parent name inductionHypothesis =>
      unfold recordType
      rw [inductionHypothesis]
      rfl
  | treat target asType _ => rfl

/-- The type of a route and one of its fields are looked up alike. -/
theorem alike_requireField
    {values : α -> β -> Prop}
    {first : String -> Field -> PathCompiling α}
    {second : String -> Field -> PathCompiling β}
    {route : Route}
    {name : String}
    (prunes : pruned.Prunes full)
    (goes : ∀ {pruned full : JoinGraph} type field, pruned.Prunes full ->
      Alike values JoinGraph.Prunes (first type field pruned) (second type field full)) :
    Alike values JoinGraph.Prunes
      ((do
        let type ← PathCompiling.require ((context.trusting true).recordType (← get) route)
        let field ← PathCompiling.require (context.schema.requireField type name)
        first type field) pruned)
      ((do
        let type ← PathCompiling.require ((context.trusting false).recordType (← get) route)
        let field ← PathCompiling.require (context.schema.requireField type name)
        second type field) full) := by
  rw [bind_of_ok (get_apply pruned), bind_of_ok (get_apply full),
    recordType_trusting prunes true false route]
  refine Alike.bind (PathCompiling.alike_require prunes _) ?_
  rintro type _ left right rfl kept
  refine Alike.bind (PathCompiling.alike_require kept _) ?_
  rintro field _ last lastRight rfl stillKept
  exact goes type field stillKept

/-- What stands for a join without trust in the schema stands for it with trust. -/
theorem alike_standsForJoin
    {owner : Route}
    {field : String}
    {direction : JoinDirection}
    (prunes : pruned.Prunes full) :
    Alike (fun strict lenient => lenient = true -> strict = true) JoinGraph.Prunes
      ((context.trusting true).standsForJoin owner field direction pruned)
      ((context.trusting false).standsForJoin owner field direction full) := by
  refine alike_requireField prunes fun type declared kept => ⟨?_, kept⟩
  cases declared.isToOne <;> cases decide (direction = .left) <;> simp [trusting]

theorem alike_implicitJoin
    (prunes : pruned.Prunes full)
    (parent : VertexId)
    (field : String) :
    Alike Eq JoinGraph.Prunes ((context.trusting true).implicitJoin parent field pruned)
      ((context.trusting false).implicitJoin parent field full) := by
  unfold implicitJoin
  rw [bind_of_ok (get_apply pruned), bind_of_ok (get_apply full),
    prunes.map_eq parent fun _ => rfl]
  refine Alike.bind (PathCompiling.alike_require prunes _) ?_
  rintro target _ left right rfl kept
  exact (kept.alike_resolve parent _).bind_pure fun _ _ same => congrArg Resolution.id same

/-! ## Routes that lead on -/

/-- A join that nothing stands for. -/
def joinVertex
    (context : PathContext)
    (parent : Route)
    (source : NodeId) : PathCompiling CompiledPath := do
  let vertex ← PathCompiling.require (context.sourceVertex source)
  PathCompiling.use vertex
  return .toVertex vertex (some (← context.compileRoute parent false false))

theorem alike_joinVertex
    {parent : Route}
    {source : NodeId}
    (prunes : pruned.Prunes full)
    (compiles : ∀ {pruned full : JoinGraph}, pruned.Prunes full ->
      Alike Eq JoinGraph.Prunes ((context.trusting true).compileRoute parent false false pruned)
        ((context.trusting false).compileRoute parent false false full)) :
    Alike Eq JoinGraph.Prunes ((context.trusting true).joinVertex parent source pruned)
      ((context.trusting false).joinVertex parent source full) := by
  refine Alike.bind (PathCompiling.alike_require prunes (context.sourceVertex source)) ?_
  rintro vertex _ left right rfl kept
  refine Alike.bind (PathCompiling.alike_use kept vertex) ?_
  rintro _ _ used usedRight _ keptUsed
  exact (compiles keptUsed).bind_pure fun _ _ same => by rw [same]

theorem alike_navigateField
    {parent : Route}
    {name parentType : String}
    {field : Field}
    {leaf selected : Bool}
    (compiles : Alike Eq JoinGraph.Prunes
      ((context.trusting true).compileRoute parent false false pruned)
      ((context.trusting false).compileRoute parent false false full)) :
    Alike Eq JoinGraph.Prunes
      ((context.trusting true).navigateField parent name parentType field leaf selected pruned)
      ((context.trusting false).navigateField parent name parentType field leaf selected full) := by
  unfold navigateField
  split
  · refine Alike.bind compiles ?_
    rintro path _ left right rfl kept
    cases path.leaf.vertex? with
    | none => rfl
    | some above =>
        refine Alike.bind (alike_implicitJoin kept above name) ?_
        rintro vertex _ grown grownRight rfl keptGrown
        exact ⟨rfl, keptGrown.setUsed vertex⟩
  · split
    · rfl
    · exact compiles.bind_pure fun _ _ same => by rw [same]

theorem compileRoute_join_false
    (context : PathContext)
    (parent : Route)
    (source : NodeId)
    (field : String)
    (direction : JoinDirection)
    (selected : Bool) :
    context.compileRoute (.join parent source field direction) false selected =
      context.joinVertex parent source := by
  rw [compileRoute]
  rfl

/-- A path that leads on never collapses, whether or not the schema is trusted. -/
theorem alike_compileRoute_false
    (prunes : pruned.Prunes full)
    (selected : Bool)
    (route : Route) :
    Alike Eq JoinGraph.Prunes ((context.trusting true).compileRoute route false selected pruned)
      ((context.trusting false).compileRoute route false selected full) := by
  induction route generalizing pruned full selected with
  | origin source =>
      rw [compileRoute, compileRoute]
      refine Alike.bind (PathCompiling.alike_require prunes (context.sourceVertex source)) ?_
      rintro vertex _ left right rfl kept
      exact ⟨rfl, kept.setUsed vertex⟩
  | join parent source field direction inductionHypothesis =>
      rw [compileRoute_join_false, compileRoute_join_false]
      exact alike_joinVertex prunes fun kept => inductionHypothesis kept false
  | field parent name inductionHypothesis =>
      rw [compileRoute_field, compileRoute_field]
      refine alike_requireField prunes fun type field kept => ?_
      exact alike_navigateField (inductionHypothesis kept false)
  | treat target asType inductionHypothesis =>
      rw [compileRoute, compileRoute]
      refine Alike.bind (PathCompiling.alike_require prunes
        (context.schema.requireRecordType asType)) ?_
      rintro declared _ left right rfl kept
      exact (inductionHypothesis kept selected).bind_pure fun _ _ same => by rw [same]

/-! ## Routes that end -/

theorem compileRoute_join
    (context : PathContext)
    (parent : Route)
    (source : NodeId)
    (field : String)
    (direction : JoinDirection)
    (leaf selected : Bool) :
    context.compileRoute (.join parent source field direction) leaf selected = (do
      let stands ←
        if leaf && !selected then context.standsForJoin parent field direction
        else pure false
      if stands then return .toField field (← context.compileRoute parent false false)
      else context.joinVertex parent source) := by
  rw [compileRoute]
  rfl

/-- The vertex of a declared source may be used in addition. -/
theorem alike_of_declared
    {parent : Route}
    {source : NodeId}
    {vertex : VertexId}
    (prunes : pruned.Prunes full)
    (declared : context.sources.find? source = some vertex) :
    Alike (fun _ _ => True) JoinGraph.Prunes
      ((context.trusting true).compileRoute parent false false pruned)
      ((context.trusting false).joinVertex parent source full) := by
  have found : PathCompiling.require ((context.trusting false).sourceVertex source) full =
      .ok vertex full :=
    PathCompiling.require_eq_ok.mpr ⟨sourceVertex_eq_ok.mpr declared, rfl⟩
  unfold joinVertex
  rw [bind_of_ok found, bind_of_ok (PathCompiling.use_apply vertex full),
    ← bind_pure ((context.trusting true).compileRoute parent false false)]
  exact (alike_compileRoute_false (prunes.setUsed_full vertex) false parent).bind_pure
    fun _ _ _ => trivial

theorem alike_collapseIdentifier_field
    {owner : Route}
    {name identifier : String}
    (prunes : pruned.Prunes full) :
    Alike Eq JoinGraph.Prunes
      ((context.trusting true).collapseIdentifier (.field owner name) identifier pruned)
      ((context.trusting false).collapseIdentifier (.field owner name) identifier full) := by
  rw [collapseIdentifier, collapseIdentifier]
  refine alike_requireField prunes fun type relation kept => ?_
  split
  · exact (alike_compileRoute_false kept false owner).bind_pure fun _ _ same => by rw [same]
  · exact ⟨rfl, kept⟩

/-- A choice by what stands for a join. A key column may stand for it only with trust. -/
theorem alike_bind_standsForJoin
    {values : α -> β -> Prop}
    {first : Bool -> PathCompiling α}
    {second : Bool -> PathCompiling β}
    {owner : Route}
    {field : String}
    {direction : JoinDirection}
    (prunes : pruned.Prunes full)
    (agrees : ∀ {pruned full : JoinGraph} stands, pruned.Prunes full ->
      Alike values JoinGraph.Prunes (first stands pruned) (second stands full))
    (trusts : ∀ {pruned full : JoinGraph}, pruned.Prunes full ->
      Alike values JoinGraph.Prunes (first true pruned) (second false full)) :
    Alike values JoinGraph.Prunes
      (((context.trusting true).standsForJoin owner field direction >>= first) pruned)
      (((context.trusting false).standsForJoin owner field direction >>= second) full) := by
  refine Alike.bind (alike_standsForJoin prunes) ?_
  intro stands standsLenient left right stronger kept
  cases standsLenient with
  | true =>
      rw [stronger rfl]
      exact agrees true kept
  | false =>
      cases stands with
      | true => exact trusts kept
      | false => exact agrees false kept

/-- A join at the end of a path. -/
theorem alike_compileRoute_join
    {parent : Route}
    {source : NodeId}
    {vertex : VertexId}
    {field : String}
    {direction : JoinDirection}
    (prunes : pruned.Prunes full)
    (selected : Bool)
    (declared : context.sources.find? source = some vertex) :
    Alike (fun _ _ => True) JoinGraph.Prunes
      ((context.trusting true).compileRoute (.join parent source field direction) true selected
        pruned)
      ((context.trusting false).compileRoute (.join parent source field direction) true selected
        full) := by
  have vertices : ∀ {pruned full : JoinGraph}, pruned.Prunes full ->
      Alike (fun _ _ => True) JoinGraph.Prunes
        ((context.trusting true).joinVertex parent source pruned)
        ((context.trusting false).joinVertex parent source full) := fun kept =>
    (alike_joinVertex kept fun still => alike_compileRoute_false still false parent).imp
      fun _ _ _ => trivial
  rw [compileRoute_join, compileRoute_join]
  cases selected with
  | true => exact vertices prunes
  | false =>
      refine alike_bind_standsForJoin prunes (fun stands kept => ?_) fun kept => ?_
      · cases stands with
        | true => exact (alike_compileRoute_false kept false parent).bind_pure fun _ _ _ => trivial
        | false => exact vertices kept
      · simp only [if_true, Bool.false_eq_true, if_false]
        rw [← bind_pure ((context.trusting false).joinVertex parent source)]
        exact (alike_of_declared kept declared).bind_pure fun _ _ _ => trivial

/-- An identifier below a join. Where a key column stands for the join only when the schema is
trusted, the vertex of the join is used otherwise. -/
theorem alike_settle_join
    {owner : Route}
    {source : NodeId}
    {vertex : VertexId}
    {relation name parentType : String}
    {direction : JoinDirection}
    {field : Field}
    {selected : Bool}
    (prunes : pruned.Prunes full)
    (declared : context.sources.find? source = some vertex)
    (isIdentifier : field.isIdentifier = true) :
    Alike (fun _ _ => True) JoinGraph.Prunes
      (((context.trusting true).collapseIdentifier (.join owner source relation direction) name >>=
        (context.trusting true).settleField (.join owner source relation direction) name parentType
          field true selected) pruned)
      (((context.trusting false).collapseIdentifier (.join owner source relation direction) name >>=
        (context.trusting false).settleField (.join owner source relation direction) name parentType
          field true selected) full) := by
  have noRelation : field.isRelation = false := by
    unfold Field.isIdentifier at isIdentifier
    unfold Field.isRelation
    cases kind : field.kind <;> simp_all [Field.target?]
  rw [collapseIdentifier, collapseIdentifier, bind_assoc, bind_assoc]
  refine alike_bind_standsForJoin prunes (fun stands kept => ?_) fun kept => ?_
  · cases stands with
    | true =>
        simp only [if_true, bind_assoc, pure_bind]
        exact (alike_compileRoute_false kept false owner).bind_pure fun _ _ _ => trivial
    | false =>
        exact (alike_navigateField (alike_compileRoute_false kept false _)).imp
          fun _ _ _ => trivial
  · simp only [if_true, bind_assoc, Bool.false_eq_true, if_false, pure_bind, settleField,
      navigateField, noRelation, Bool.false_and, Bool.not_true, compileRoute_join_false]
    exact (alike_of_declared kept declared).bind_pure fun _ _ _ => trivial

/-- A field at the end of a path. -/
theorem alike_settleField
    {parent : Route}
    {name parentType : String}
    {field : Field}
    {selected : Bool}
    (prunes : pruned.Prunes full)
    (declared : ∀ source ∈ parent.sources, ∃ vertex, context.sources.find? source = some vertex) :
    Alike (fun _ _ => True) JoinGraph.Prunes
      (((context.trusting true).attemptField parent name field true >>=
        (context.trusting true).settleField parent name parentType field true selected) pruned)
      (((context.trusting false).attemptField parent name field true >>=
        (context.trusting false).settleField parent name parentType field true selected) full) := by
  have navigates : ∀ {pruned full : JoinGraph}, pruned.Prunes full ->
      Alike (fun _ _ => True) JoinGraph.Prunes
        ((context.trusting true).navigateField parent name parentType field true selected pruned)
        ((context.trusting false).navigateField parent name parentType field true selected full) :=
    fun kept => (alike_navigateField (alike_compileRoute_false kept false parent)).imp
      fun _ _ _ => trivial
  unfold attemptField
  cases isIdentifier : field.isIdentifier with
  | false => exact navigates prunes
  | true =>
      cases parent with
      | origin source => exact navigates prunes
      | treat target asType => exact navigates prunes
      | join owner source relation direction =>
          obtain ⟨vertex, found⟩ := declared source List.mem_cons_self
          exact alike_settle_join prunes found isIdentifier
      | field owner relation =>
          refine Alike.bind (alike_collapseIdentifier_field prunes) ?_
          rintro collapsed _ left right rfl kept
          cases collapsed with
          | some path => exact ⟨trivial, kept⟩
          | none => exact navigates kept

/-- A path uses less when the schema is trusted, and is otherwise compiled alike. -/
theorem alike_compileRoute
    (prunes : pruned.Prunes full)
    (selected : Bool)
    (route : Route)
    (declared : ∀ source ∈ route.sources, ∃ vertex, context.sources.find? source = some vertex) :
    Alike (fun _ _ => True) JoinGraph.Prunes
      ((context.trusting true).compileRoute route true selected pruned)
      ((context.trusting false).compileRoute route true selected full) := by
  induction route generalizing pruned full with
  | origin source =>
      rw [compileRoute, compileRoute]
      refine Alike.bind (PathCompiling.alike_require prunes (context.sourceVertex source)) ?_
      rintro vertex _ left right rfl kept
      exact ⟨trivial, kept.setUsed vertex⟩
  | join parent source field direction _ =>
      obtain ⟨vertex, found⟩ := declared source List.mem_cons_self
      exact alike_compileRoute_join prunes selected found
  | field parent name _ =>
      rw [compileRoute_field, compileRoute_field]
      exact alike_requireField prunes fun type field kept => alike_settleField kept declared
  | treat target asType inductionHypothesis =>
      rw [compileRoute, compileRoute]
      refine Alike.bind (PathCompiling.alike_require prunes
        (context.schema.requireRecordType asType)) ?_
      rintro found _ left right rfl kept
      exact (inductionHypothesis kept declared).bind_pure fun _ _ _ => trivial

/-- The paths of a tree are compiled alike, in the same order, whether or not the schema is
trusted. -/
theorem alike_compilePaths
    {tree : Tree}
    {identities : List PathIdentity}
    (prunes : pruned.Prunes full)
    (declared : ∀ identity ∈ identities, ∀ route, tree.route identity.node = .ok route ->
      ∀ source ∈ route.sources, ∃ vertex, context.sources.find? source = some vertex) :
    Alike (List.Forall₂ fun strict lenient => strict.1 = lenient.1) JoinGraph.Prunes
      ((context.trusting true).compilePaths tree identities pruned)
      ((context.trusting false).compilePaths tree identities full) := by
  refine Alike.mapM (fun identity member left right kept => ?_) prunes
  unfold compilePath
  cases found : tree.route identity.node with
  | error error => rfl
  | ok route =>
      exact (alike_compileRoute kept identity.isDirectlySelected route
        (declared identity member route found)).bind_pure fun _ _ _ => rfl

end PathContext
end QueryGraph
