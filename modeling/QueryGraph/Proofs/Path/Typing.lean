import QueryGraph.Proofs.Path.Type

/-!
# When joins have the types of paths

Compiling a route joins below vertices, so a relation is looked up in the type that a route
has without its treats. The lookup succeeds with the type of the path wherever the treats do
not matter.
-/

namespace QueryGraph
namespace PathContext

variable
  {context : PathContext}
  {tree : Tree}
  {types : NodeId -> Option String}
  {before after : JoinGraph}

/-- A graph that agrees with the tree and gives the sources some types. -/
structure Ready
    (context : PathContext)
    (tree : Tree)
    (types : NodeId -> Option String)
    (graph : JoinGraph) : Prop where
  sound : context.Sound tree graph
  types : context.sourceType? graph = types

namespace Ready

theorem of_stays
    {statement : NodeId}
    {path : CompiledPath}
    (ready : context.Ready tree types before)
    (stays : context.Stays tree statement before after path) :
    context.Ready tree types after where
  sound := stays.sound
  types := (ready.sound.sourceType?_eq stays.grows).trans ready.types

theorem setUsed
    (ready : context.Ready tree types before)
    (id : VertexId) :
    context.Ready tree types (before.setUsed id) where
  sound := ready.sound.setUsed id
  types := by
    rw [ready.sound.sourceType?_eq (JoinGraph.retouched_setUsed before id).grows, ready.types]

/-- A declared source has a vertex of its type. -/
theorem sourceVertex
    {source : NodeId}
    {id : VertexId}
    (ready : context.Ready tree types before)
    (declared : context.sources.find? source = some id) :
    ∃ vertex, before.vertex? id = some vertex ∧ types source = some vertex.recordType := by
  obtain ⟨vertex, found, -⟩ := ready.sound.described declared
  refine ⟨vertex, found, ?_⟩
  rw [← ready.types]
  simp [sourceType?, declared, found]

/-- The type of a navigable route is found. -/
theorem recordType
    {route : Route}
    {last : Bool}
    {type : String}
    (ready : context.Ready tree types before)
    (navigable : route.Navigable context.schema types last)
    (typed : route.type? context.schema types = some type) :
    context.recordType before route = .ok type := by
  have source {id : NodeId} {type : String} (typed : types id = some type) :
      (do
        let vertex ← context.sourceVertex id
        return ((before.vertex? vertex).map Vertex.recordType).getD "" :
          Except CompileError String) = .ok type := by
    rw [← ready.types] at typed
    obtain ⟨vertex, declared, found⟩ := Option.bind_eq_some_iff.mp typed
    rw [sourceVertex_eq_ok.mpr declared]
    change Except.ok (((before.vertex? vertex).map Vertex.recordType).getD "") = _
    rw [found]
    rfl
  induction route generalizing last type with
  | origin id => exact source typed
  | join parent id relation direction _ => exact source typed
  | field parent name inductionHypothesis =>
      obtain ⟨parentType, parentTyped, rest⟩ := Option.bind_eq_some_iff.mp typed
      obtain ⟨declared, found, leads⟩ := Option.bind_eq_some_iff.mp rest
      rw [PathContext.recordType, inductionHypothesis navigable.1 parentTyped]
      exact Schema.relationTarget_eq_ok.mpr ⟨declared, found, leads⟩
  | treat target asType _ =>
      cases typed
      obtain ⟨declared, found⟩ := Option.isSome_iff_exists.mp navigable.1
      rw [PathContext.recordType, Schema.requireRecordType_eq_ok.mpr found]
      rfl

/-- A field below a navigable route is the declared one. -/
theorem compileRoute_field_eq_ok
    {parent : Route}
    {name type : String}
    {field : Field}
    {leaf selected : Bool}
    {path : CompiledPath}
    (ready : context.Ready tree types before)
    (navigable : parent.Navigable context.schema types false)
    (typed : parent.type? context.schema types = some type)
    (found : context.schema.fieldOf? type name = some field) :
    context.compileRoute (.field parent name) leaf selected before = .ok path after ↔
      ∃ collapsed between,
        context.attemptField parent name field leaf before = .ok collapsed between ∧
        ((collapsed = some path ∧ after = between) ∨
        collapsed = none ∧ context.navigateField parent name type field leaf selected between =
          .ok path after) := by
  have asked := ready.recordType navigable typed
  have required := Schema.requireField_eq_ok.mpr found
  rw [PathContext.compileRoute_field_eq_ok]
  constructor
  · rintro ⟨otherType, other, collapsed, between, otherAsked, otherRequired, attempt, rest⟩
    rw [asked] at otherAsked
    cases otherAsked
    rw [required] at otherRequired
    cases otherRequired
    exact ⟨collapsed, between, attempt, rest⟩
  · rintro ⟨collapsed, between, attempt, rest⟩
    exact ⟨type, field, collapsed, between, asked, required, attempt, rest⟩

end Ready

/-! ## Routes that go on -/

/-- What a route leads to when it goes on: a vertex of the type without treats, and vertices of
the types of its fields wherever the treats do not matter. -/
structure Reaches
    (context : PathContext)
    (types : NodeId -> Option String)
    (route : Route)
    (graph : JoinGraph)
    (path : CompiledPath) : Prop where
  leaf : ∃ id vertex, path.leaf.vertex? = some id ∧ graph.vertex? id = some vertex ∧
    route.untreated.type? context.schema types = some vertex.recordType
  typed : ∀ {later}, graph.Grows later ->
    (route.EdgesTyped context.schema types later path.edges ↔
      route.Agrees context.schema types)

namespace Reaches

/-- A relation joined below what a route leads to is what the route with the field leads to. -/
theorem field
    {parent : Route}
    {name : String}
    {above : CompiledPath}
    {owner id : VertexId}
    (reaches : context.Reaches types parent before above)
    (sound : context.Sound tree before)
    (isOwner : above.leaf.vertex? = some owner)
    (joined : context.implicitJoin owner name before = .ok id after) :
    context.Reaches types (.field parent name) (after.setUsed id) (.toVertex id (some above)) := by
  obtain ⟨other, ownerVertex, isOther, ownerFound, ownerTyped⟩ := reaches.leaf
  rw [isOwner] at isOther
  cases isOther
  obtain ⟨target, resolution, leads, resolved, rfl⟩ := implicitJoin_eq_ok.mp joined
  have leads : context.schema.relationTarget ownerVertex.recordType name = .ok target := by
    unfold Graphing.typeOf at leads
    rwa [ownerFound] at leads
  obtain ⟨grows, -, vertex, found, isTarget, isField, -⟩ :=
    JoinGraph.resolve_spec ownerFound sound.coherent leads resolved
  have growsUsed := (JoinGraph.retouched_setUsed after resolution.id).grows
  obtain ⟨used, usedFound, usedType, usedField, -⟩ := growsUsed resolution.id vertex found
  have typed : (Route.field parent.untreated name).type? context.schema types =
      some used.recordType := by
    obtain ⟨declared, declaredFound, declaredLeads⟩ := Schema.relationTarget_eq_ok.mp leads
    have isType : used.recordType = target := usedType.trans isTarget
    simp only [Route.type?, ownerTyped, Option.bind_some, declaredFound, declaredLeads, isType]
  refine ⟨⟨resolution.id, used, rfl, usedFound, typed⟩, fun {later} laterGrows => ?_⟩
  obtain ⟨last, lastFound, lastType, lastField, -⟩ := laterGrows resolution.id used usedFound
  have below := reaches.typed ((grows.trans growsUsed).trans laterGrows)
  rw [CompiledPath.edges_toVertex_some]
  unfold Route.EdgesTyped Route.Agrees
  rw [typed, below, and_comm]
  apply and_congr_right
  intro _
  constructor
  · intro edge
    obtain ⟨again, againFound, -, againTyped⟩ := edge resolution.id rfl
    rw [Option.mem_def, lastFound] at againFound
    cases againFound
    rw [againTyped, lastType]
  · intro agrees other isOther
    cases isOther
    refine ⟨last, lastFound, ?_, ?_⟩
    · rw [lastField, usedField, isField]
    · rw [← agrees, lastType]

/-- A relation whose type does not depend on treats can be joined below what a route leads to. -/
theorem joins
    {parent : Route}
    {name target : String}
    {above : CompiledPath}
    {owner : VertexId}
    (reaches : context.Reaches types parent before above)
    (isOwner : above.leaf.vertex? = some owner)
    (typed : (Route.field parent.untreated name).type? context.schema types = some target) :
    ∃ id after, context.implicitJoin owner name before = .ok id after := by
  obtain ⟨other, ownerVertex, isOther, ownerFound, ownerTyped⟩ := reaches.leaf
  rw [isOwner] at isOther
  cases isOther
  simp only [Route.type?, ownerTyped, Option.bind_some] at typed
  obtain ⟨declared, found, leads⟩ := Option.bind_eq_some_iff.mp typed
  have leads : context.schema.relationTarget (Graphing.typeOf before owner) name = .ok target := by
    unfold Graphing.typeOf
    rw [ownerFound]
    exact Schema.relationTarget_eq_ok.mpr ⟨declared, found, leads⟩
  obtain ⟨resolution, after, resolved⟩ := JoinGraph.resolve_implicit before owner name target
  exact ⟨resolution.id, after, implicitJoin_eq_ok.mpr ⟨target, resolution, leads, resolved, rfl⟩⟩

/-- A field that is read without a join has joins of the right types where what it is read
from has. -/
theorem toField
    {parent : Route}
    {name read : String}
    {above : CompiledPath}
    (reaches : context.Reaches types parent after above) :
    (Route.field parent name).EdgesTyped context.schema types after
      (CompiledPath.toField read above).edges ↔ parent.Agrees context.schema types :=
  CompiledPath.edgesTyped_toField.trans (reaches.typed (.refl after))

end Reaches

/-- Compiling a route of a tree leaves a graph that is ready for the next one. -/
theorem Ready.compileRoute
    {id : NodeId}
    {route : Route}
    {leaf selected : Bool}
    {path : CompiledPath}
    (ready : context.Ready tree types before)
    (leads : Route.Leads tree id route)
    (done : context.compileRoute route leaf selected before = .ok path after) :
    before.Grows after ∧ context.Ready tree types after := by
  obtain ⟨_, staysIn⟩ := leads.exists_staysIn context.schema
  have stays := compileRoute_stays ready.sound route staysIn done
  exact ⟨stays.grows, ready.of_stays stays⟩

/-- What a compiled route that goes on leads to. -/
theorem reaches_of_compileRoute
    {id : NodeId}
    {route : Route}
    {path : CompiledPath}
    (ready : context.Ready tree types before)
    (leads : Route.Leads tree id route)
    (navigable : route.Navigable context.schema types false)
    (done : context.compileRoute route false false before = .ok path after) :
    context.Reaches types route after path := by
  induction leads generalizing before after path with
  | @origin source body found notJoin =>
      obtain ⟨vertexId, declared, rfl, rfl⟩ := compileRoute_origin_eq_ok.mp done
      obtain ⟨vertex, vertexFound, typed⟩ := (ready.setUsed vertexId).sourceVertex declared
      exact ⟨⟨vertexId, vertex, rfl, vertexFound, typed⟩, fun _ => Iff.rfl⟩
  | @join source parent body relation direction mode on above found isJoin leads
      inductionHypothesis =>
      obtain ⟨stands, asked, ⟨rfl, -⟩ | ⟨-, vertexId, abovePath, declared, aboveDone, rfl⟩⟩ :=
        compileRoute_join_eq_ok.mp done
      · simp at asked
      · have readyUsed := ready.setUsed vertexId
        have reaches := inductionHypothesis readyUsed navigable aboveDone
        obtain ⟨-, readyAfter⟩ := readyUsed.compileRoute leads aboveDone
        obtain ⟨vertex, vertexFound, typed⟩ := readyAfter.sourceVertex declared
        exact ⟨⟨vertexId, vertex, rfl, vertexFound, typed⟩, fun grows => reaches.typed grows⟩
  | @field node parent name above found leads inductionHypothesis =>
      obtain ⟨navigableAbove, type, typed, declared, declaredFound, isRelation⟩ := navigable
      obtain ⟨collapsed, between, attempt, rest⟩ :=
        (ready.compileRoute_field_eq_ok navigableAbove typed declaredFound).mp done
      cases attempt
      obtain ⟨contrary, -⟩ | ⟨-, navigated⟩ := rest
      · cases contrary
      have result := navigateField_eq_ok.mp navigated
      simp only [Bool.false_eq_true, false_or] at isRelation
      simp only [isRelation, Bool.not_false, Bool.true_or, Bool.and_true, if_true] at result
      obtain ⟨abovePath, middle, owner, vertexId, grown, aboveDone, isOwner, joined, rfl, rfl⟩ :=
        result
      obtain ⟨-, readyMiddle⟩ := ready.compileRoute leads aboveDone
      exact (inductionHypothesis ready navigableAbove aboveDone).field readyMiddle.sound isOwner
        joined
  | @treat node target asType inner found leads inductionHypothesis =>
      obtain ⟨declared, innerPath, -, innerDone, rfl⟩ := compileRoute_treat_eq_ok.mp done
      have reaches := inductionHypothesis ready navigable.2 innerDone
      exact ⟨reaches.leaf, reaches.typed⟩

/-- A route that goes on compiles wherever the treats do not matter. -/
theorem compileRoute_of_agrees
    {id : NodeId}
    {route : Route}
    (ready : context.Ready tree types before)
    (leads : Route.Leads tree id route)
    (declared : ∀ source ∈ route.sources, ∃ vertex, context.sources.find? source = some vertex)
    (navigable : route.Navigable context.schema types false)
    (agrees : route.Agrees context.schema types) :
    ∃ path after, context.compileRoute route false false before = .ok path after := by
  induction leads generalizing before with
  | origin found notJoin =>
      obtain ⟨vertexId, vertexDeclared⟩ := declared _ List.mem_cons_self
      exact ⟨_, _, compileRoute_origin_eq_ok.mpr ⟨vertexId, vertexDeclared, rfl, rfl⟩⟩
  | join found isJoin leads inductionHypothesis =>
      obtain ⟨vertexId, vertexDeclared⟩ := declared _ List.mem_cons_self
      obtain ⟨path, after, done⟩ := inductionHypothesis (ready.setUsed vertexId)
        (fun source member => declared source (List.mem_cons_of_mem _ member)) navigable agrees
      exact ⟨_, after, compileRoute_join_eq_ok.mpr
        ⟨false, by simp, Or.inr ⟨rfl, vertexId, path, vertexDeclared, done, rfl⟩⟩⟩
  | @field node parent name above found leads inductionHypothesis =>
      obtain ⟨navigableAbove, type, typed, field, fieldFound, isRelation⟩ := navigable
      simp only [Bool.false_eq_true, false_or] at isRelation
      obtain ⟨aboveAgrees, agrees⟩ := agrees
      obtain ⟨path, middle, done⟩ := inductionHypothesis ready declared navigableAbove aboveAgrees
      have reaches := reaches_of_compileRoute ready leads navigableAbove done
      obtain ⟨owner, -, isOwner, -, -⟩ := reaches.leaf
      obtain ⟨target, isTarget⟩ := Option.isSome_iff_exists.mp isRelation
      have fieldTyped := Route.type?_field_eq_some typed fieldFound isTarget
      obtain ⟨vertexId, grown, joined⟩ := reaches.joins isOwner (agrees.trans fieldTyped)
      have navigated : context.navigateField above name type field false false before =
          .ok (.toVertex vertexId (some path)) (grown.setUsed vertexId) := by
        rw [navigateField_eq_ok, if_pos (by simp [isRelation])]
        exact ⟨path, middle, owner, vertexId, grown, done, isOwner, joined, rfl, rfl⟩
      exact ⟨_, _, (ready.compileRoute_field_eq_ok navigableAbove typed fieldFound).mpr
        ⟨none, before, rfl, Or.inr ⟨rfl, navigated⟩⟩⟩
  | @treat node target asType inner found leads inductionHypothesis =>
      obtain ⟨path, after, done⟩ := inductionHypothesis ready declared navigable.2 agrees
      obtain ⟨type, typeFound⟩ := Option.isSome_iff_exists.mp navigable.1
      exact ⟨_, after, compileRoute_treat_eq_ok.mpr
        ⟨type, path, Schema.requireRecordType_eq_ok.mpr typeFound, done, rfl⟩⟩

/-! ## Identifiers -/

/-- Whether a key column stands for a declared join is always answered. -/
theorem Ready.standsForJoin
    {id source : NodeId}
    {owner : Route}
    {relation : String}
    {direction : JoinDirection}
    (ready : context.Ready tree types before)
    (leads : Route.Leads tree id (.join owner source relation direction))
    (declared : ∀ other ∈ (Route.join owner source relation direction).sources,
      ∃ vertex, context.sources.find? other = some vertex)
    (navigable : owner.Navigable context.schema types false) :
    ∃ stands, context.standsForJoin owner relation direction before = .ok stands before := by
  cases leads with
  | join found isJoin leads =>
      obtain ⟨vertexId, vertexDeclared⟩ := declared id List.mem_cons_self
      obtain ⟨vertex, -, described⟩ := ready.sound.described vertexDeclared
      obtain ⟨parentType, parentDescribed, target⟩ := described.of_join found isJoin
      obtain ⟨parentBody, parentFound⟩ := parentDescribed.isSource
      obtain ⟨parentId, parentDeclared⟩ :=
        declared _ (List.mem_cons_of_mem id (leads.mem_sources parentFound))
      obtain ⟨parentVertex, parentPresent, parentTyped⟩ := ready.sourceVertex parentDeclared
      obtain ⟨again, againPresent, againDescribed⟩ := ready.sound.described parentDeclared
      rw [parentPresent] at againPresent
      cases againPresent
      obtain ⟨rfl, -⟩ := parentDescribed.unique againDescribed
      have typed : owner.type? context.schema types = some parentVertex.recordType := by
        rw [leads.type?_of_source parentFound, parentTyped]
      obtain ⟨field, fieldFound, -⟩ := Schema.relationTarget_eq_ok.mp target
      exact ⟨_, standsForJoin_eq_ok.mpr ⟨rfl, _, field, ready.recordType navigable typed,
        Schema.requireField_eq_ok.mpr fieldFound, rfl⟩⟩

/-- A collapsed identifier has joins of the right types wherever the treats before it do not
matter, and one that does not collapse leaves the graph as it is. -/
theorem typed_of_collapse
    {id : NodeId}
    {parent : Route}
    {identifier : String}
    {collapsed : Option CompiledPath}
    (ready : context.Ready tree types before)
    (leads : Route.Leads tree id parent)
    (navigable : parent.Navigable context.schema types false)
    (done : context.collapseIdentifier parent identifier before = .ok collapsed after) :
    match collapsed with
    | some path =>
        (Route.field parent identifier).EdgesTyped context.schema types after path.edges ↔
          parent.OwnerAgrees context.schema types
    | none => after = before ∧ (parent.OwnerAgrees context.schema types ↔
        parent.Agrees context.schema types) := by
  cases leads with
  | origin =>
      cases done
      exact ⟨rfl, Iff.rfl⟩
  | treat =>
      cases done
      exact ⟨rfl, Iff.rfl⟩
  | join found isJoin leads =>
      obtain ⟨stands, -, ⟨-, inner, innerDone, rfl⟩ | ⟨-, rfl, rfl⟩⟩ :=
        collapseIdentifier_join_eq_ok.mp done
      · have reaches := reaches_of_compileRoute ready leads navigable innerDone
        exact CompiledPath.edgesTyped_toField.trans (reaches.typed (.refl _))
      · exact ⟨rfl, Iff.rfl⟩
  | @field _ ownerId name owner found leads =>
      obtain ⟨navigableOwner, type, typed, relation, relationFound, -⟩ := navigable
      obtain ⟨ownerType, declared, asked, required, rest⟩ :=
        collapseIdentifier_field_eq_ok.mp done
      rw [ready.recordType navigableOwner typed] at asked
      cases asked
      rw [Schema.requireField_eq_ok.mpr relationFound] at required
      cases required
      have last := Route.lastField?_eq_some typed relationFound
      simp only [Route.OwnerAgrees, last, Option.any_some]
      rcases rest with ⟨toOne, inner, innerDone, rfl⟩ | ⟨notToOne, rfl, rfl⟩
      · have reaches := reaches_of_compileRoute ready leads navigableOwner innerDone
        have below : (Route.field owner name).EdgesTyped context.schema types after
            (CompiledPath.toField name inner).edges ↔ owner.Agrees context.schema types :=
          reaches.toField
        rw [if_pos toOne]
        exact CompiledPath.edgesTyped_toField.trans below
      · rw [if_neg (by simp [notToOne])]
        exact ⟨rfl, Iff.rfl⟩

/-- The question whether an identifier collapses is answered wherever the treats before it do
not matter. -/
theorem collapseIdentifier_of_agrees
    {id : NodeId}
    {parent : Route}
    (identifier : String)
    (ready : context.Ready tree types before)
    (leads : Route.Leads tree id parent)
    (declared : ∀ source ∈ parent.sources, ∃ vertex, context.sources.find? source = some vertex)
    (navigable : parent.Navigable context.schema types false)
    (agrees : parent.OwnerAgrees context.schema types) :
    ∃ collapsed after,
      context.collapseIdentifier parent identifier before = .ok collapsed after := by
  cases leads with
  | origin => exact ⟨none, before, rfl⟩
  | treat => exact ⟨none, before, rfl⟩
  | join found isJoin leads =>
      obtain ⟨stands, answered⟩ := ready.standsForJoin (.join found isJoin leads) declared navigable
      cases stands with
      | false =>
          exact ⟨none, before, collapseIdentifier_join_eq_ok.mpr
            ⟨false, answered, Or.inr ⟨rfl, rfl, rfl⟩⟩⟩
      | true =>
          obtain ⟨inner, after, innerDone⟩ := compileRoute_of_agrees ready leads
            (fun source member => declared source (List.mem_cons_of_mem _ member)) navigable agrees
          exact ⟨_, after, collapseIdentifier_join_eq_ok.mpr
            ⟨true, answered, Or.inl ⟨rfl, inner, innerDone, rfl⟩⟩⟩
  | @field _ ownerId name owner found leads =>
      obtain ⟨navigableOwner, type, typed, relation, relationFound, -⟩ := navigable
      have last := Route.lastField?_eq_some typed relationFound
      simp only [Route.OwnerAgrees, last, Option.any_some] at agrees
      have asked := ready.recordType navigableOwner typed
      have required := Schema.requireField_eq_ok.mpr relationFound
      cases toOne : relation.isToOne with
      | false =>
          exact ⟨none, before, collapseIdentifier_field_eq_ok.mpr
            ⟨type, relation, asked, required, Or.inr ⟨toOne, rfl, rfl⟩⟩⟩
      | true =>
          rw [if_pos toOne] at agrees
          obtain ⟨inner, after, innerDone⟩ :=
            compileRoute_of_agrees ready leads declared navigableOwner agrees
          exact ⟨_, after, collapseIdentifier_field_eq_ok.mpr
            ⟨type, relation, asked, required, Or.inl ⟨toOne, inner, innerDone, rfl⟩⟩⟩

/-! ## Paths that end -/

theorem isToOne_of_isIdentifier
    {field : Field}
    (isIdentifier : field.isIdentifier = true) :
    field.isToOne = false := by
  unfold Field.isIdentifier at isIdentifier
  simp only [decide_eq_true_eq] at isIdentifier
  simp [Field.isToOne, Field.relationKind?, isIdentifier]

theorem isRelation_of_isToOne
    {field : Field}
    (toOne : field.isToOne = true) :
    field.isRelation = true := by
  unfold Field.isToOne Field.relationKind? at toOne
  unfold Field.isRelation Field.target?
  cases kind : field.kind <;> simp_all

/-- A last field that did not collapse has joins of the right types wherever the treats before
the joins do not matter. -/
theorem typed_of_navigateField
    {id : NodeId}
    {parent : Route}
    {name parentType : String}
    {field : Field}
    {selected : Bool}
    {path : CompiledPath}
    (ready : context.Ready tree types before)
    (leads : Route.Leads tree id parent)
    (navigable : parent.Navigable context.schema types false)
    (done : context.navigateField parent name parentType field true selected before =
      .ok path after) :
    (Route.field parent name).EdgesTyped context.schema types after path.edges ↔
      if selected && field.isToOne then (Route.field parent name).Agrees context.schema types
      else parent.Agrees context.schema types := by
  have result := navigateField_eq_ok.mp done
  simp only [Bool.not_true, Bool.false_or] at result
  cases joins : selected && field.isToOne with
  | true =>
      have isRelation := isRelation_of_isToOne (Bool.and_eq_true_iff.mp joins).2
      rw [joins, isRelation] at result
      obtain ⟨above, middle, owner, vertexId, grown, aboveDone, isOwner, joined, rfl, rfl⟩ := result
      obtain ⟨-, readyMiddle⟩ := ready.compileRoute leads aboveDone
      have reaches := (reaches_of_compileRoute ready leads navigable aboveDone).field
        readyMiddle.sound isOwner joined
      exact reaches.typed (.refl _)
  | false =>
      rw [joins, Bool.and_false] at result
      obtain ⟨-, above, aboveDone, rfl⟩ := result
      exact (reaches_of_compileRoute ready leads navigable aboveDone).toField

/-- A path has joins of the right types exactly where the treats before the joins do not
matter. -/
theorem typed_of_compileRoute
    {id : NodeId}
    {route : Route}
    {selected : Bool}
    {path : CompiledPath}
    (ready : context.Ready tree types before)
    (leads : Route.Leads tree id route)
    (navigable : route.Navigable context.schema types true)
    (done : context.compileRoute route true selected before = .ok path after) :
    route.EdgesTyped context.schema types after path.edges ↔
      route.TreatsAgree context.schema types selected := by
  induction leads generalizing path with
  | origin => exact Iff.rfl
  | join found isJoin leads =>
      obtain ⟨stands, -, ⟨-, above, aboveDone, rfl⟩ |
        ⟨-, vertexId, above, declared, aboveDone, rfl⟩⟩ := compileRoute_join_eq_ok.mp done
      · exact (reaches_of_compileRoute ready leads navigable aboveDone).typed (.refl _)
      · exact (reaches_of_compileRoute (ready.setUsed vertexId) leads navigable aboveDone).typed
          (.refl _)
  | @field node parent name above found leads =>
      obtain ⟨navigableAbove, type, typed, declared, declaredFound, -⟩ := navigable
      obtain ⟨collapsed, between, attempt, rest⟩ :=
        (ready.compileRoute_field_eq_ok navigableAbove typed declaredFound).mp done
      have last := Route.lastField?_eq_some typed declaredFound
      simp only [Route.TreatsAgree, last, Option.any_some]
      unfold attemptField at attempt
      cases isIdentifier : declared.isIdentifier with
      | true =>
          rw [isIdentifier] at attempt
          have outcome := typed_of_collapse ready leads navigableAbove attempt
          rw [if_pos rfl]
          rcases rest with ⟨rfl, rfl⟩ | ⟨rfl, navigated⟩
          · exact outcome
          · obtain ⟨rfl, same⟩ := outcome
            have notToOne := isToOne_of_isIdentifier isIdentifier
            have plain := typed_of_navigateField ready leads navigableAbove navigated
            rw [notToOne, Bool.and_false, if_neg Bool.false_ne_true] at plain
            exact plain.trans same.symm
      | false =>
          rw [isIdentifier] at attempt
          cases attempt
          rw [if_neg Bool.false_ne_true]
          obtain ⟨contrary, -⟩ | ⟨-, navigated⟩ := rest
          · cases contrary
          · exact typed_of_navigateField ready leads navigableAbove navigated
  | treat found leads inductionHypothesis =>
      obtain ⟨declared, inner, -, innerDone, rfl⟩ := compileRoute_treat_eq_ok.mp done
      have typed := inductionHypothesis navigable.2 innerDone
      exact typed

/-- A last field compiles wherever the treats before the joins do not matter. -/
theorem navigateField_of_agrees
    {id : NodeId}
    {parent : Route}
    {name parentType : String}
    {field : Field}
    {selected : Bool}
    (ready : context.Ready tree types before)
    (leads : Route.Leads tree id parent)
    (declared : ∀ source ∈ parent.sources, ∃ vertex, context.sources.find? source = some vertex)
    (navigable : parent.Navigable context.schema types false)
    (typed : parent.type? context.schema types = some parentType)
    (fieldFound : context.schema.fieldOf? parentType name = some field)
    (agrees : if selected && field.isToOne then
        (Route.field parent name).Agrees context.schema types
      else parent.Agrees context.schema types) :
    ∃ path after,
      context.navigateField parent name parentType field true selected before = .ok path after := by
  cases joins : selected && field.isToOne with
  | true =>
      rw [joins, if_pos rfl] at agrees
      obtain ⟨parentAgrees, same⟩ := agrees
      have isRelation := isRelation_of_isToOne (Bool.and_eq_true_iff.mp joins).2
      obtain ⟨target, isTarget⟩ := Option.isSome_iff_exists.mp isRelation
      obtain ⟨above, middle, done⟩ :=
        compileRoute_of_agrees ready leads declared navigable parentAgrees
      have reaches := reaches_of_compileRoute ready leads navigable done
      obtain ⟨owner, -, isOwner, -, -⟩ := reaches.leaf
      have fieldTyped := Route.type?_field_eq_some typed fieldFound isTarget
      obtain ⟨vertexId, grown, joined⟩ := reaches.joins isOwner (same.trans fieldTyped)
      refine ⟨.toVertex vertexId (some above), grown.setUsed vertexId, ?_⟩
      rw [navigateField_eq_ok, if_pos (by simp [isRelation, joins])]
      exact ⟨above, middle, owner, vertexId, grown, done, isOwner, joined, rfl, rfl⟩
  | false =>
      rw [joins, if_neg Bool.false_ne_true] at agrees
      obtain ⟨above, after, done⟩ := compileRoute_of_agrees ready leads declared navigable agrees
      refine ⟨.toField name above, after, ?_⟩
      rw [navigateField_eq_ok, if_neg (by simp [joins])]
      exact ⟨rfl, above, done, rfl⟩

/-- A declared join at the end of a route compiles wherever the treats before it do not
matter. -/
theorem compileRoute_join_of_agrees
    {id source : NodeId}
    {parent : Route}
    {relation : String}
    {direction : JoinDirection}
    {selected : Bool}
    (ready : context.Ready tree types before)
    (leads : Route.Leads tree id (.join parent source relation direction))
    (declared : ∀ other ∈ (Route.join parent source relation direction).sources,
      ∃ vertex, context.sources.find? other = some vertex)
    (navigable : parent.Navigable context.schema types false)
    (agrees : parent.Agrees context.schema types) :
    ∃ path after,
      context.compileRoute (.join parent source relation direction) true selected before =
        .ok path after := by
  have further : ∀ other ∈ parent.sources, ∃ vertex, context.sources.find? other = some vertex :=
    fun other member => declared other (List.mem_cons_of_mem source member)
  obtain ⟨vertexId, vertexDeclared⟩ := declared source List.mem_cons_self
  obtain ⟨stands, answered⟩ : ∃ stands, if true && !selected then
      context.standsForJoin parent relation direction before = .ok stands before
      else stands = false := by
    split
    · exact ready.standsForJoin leads declared navigable
    · exact ⟨false, rfl⟩
  cases leads with
  | join found isJoin parentLeads =>
      cases stands with
      | true =>
          obtain ⟨path, after, done⟩ :=
            compileRoute_of_agrees ready parentLeads further navigable agrees
          exact ⟨_, after, compileRoute_join_eq_ok.mpr
            ⟨true, answered, Or.inl ⟨rfl, path, done, rfl⟩⟩⟩
      | false =>
          have readyUsed := ready.setUsed vertexId
          obtain ⟨path, after, done⟩ :=
            compileRoute_of_agrees readyUsed parentLeads further navigable agrees
          exact ⟨_, after, compileRoute_join_eq_ok.mpr
            ⟨false, answered, Or.inr ⟨rfl, vertexId, path, vertexDeclared, done, rfl⟩⟩⟩

/-- An identifier at the end of a path is collapsed or read wherever the treats before it do
not matter. -/
theorem compileRoute_identifier_of_agrees
    {id : NodeId}
    {parent : Route}
    {name type : String}
    {field : Field}
    {selected : Bool}
    (ready : context.Ready tree types before)
    (leads : Route.Leads tree id parent)
    (declared : ∀ source ∈ parent.sources, ∃ vertex, context.sources.find? source = some vertex)
    (navigable : parent.Navigable context.schema types false)
    (typed : parent.type? context.schema types = some type)
    (fieldFound : context.schema.fieldOf? type name = some field)
    (isIdentifier : field.isIdentifier = true)
    (agrees : parent.OwnerAgrees context.schema types) :
    ∃ path after, context.compileRoute (.field parent name) true selected before =
      .ok path after := by
  obtain ⟨collapsed, between, attempt⟩ :=
    collapseIdentifier_of_agrees name ready leads declared navigable agrees
  have outcome := typed_of_collapse ready leads navigable attempt
  have attempted : context.attemptField parent name field true before =
      .ok collapsed between := by
    unfold attemptField
    rw [isIdentifier]
    exact attempt
  cases collapsed with
  | some path =>
      exact ⟨path, between, (ready.compileRoute_field_eq_ok navigable typed fieldFound).mpr
        ⟨some path, between, attempted, Or.inl ⟨rfl, rfl⟩⟩⟩
  | none =>
      obtain ⟨rfl, same⟩ := outcome
      have notToOne := isToOne_of_isIdentifier isIdentifier
      have plain : if selected && field.isToOne then
          (Route.field parent name).Agrees context.schema types
          else parent.Agrees context.schema types := by
        rw [notToOne, Bool.and_false, if_neg Bool.false_ne_true]
        exact same.mp agrees
      obtain ⟨path, after, navigated⟩ :=
        navigateField_of_agrees ready leads declared navigable typed fieldFound plain
      exact ⟨path, after, (ready.compileRoute_field_eq_ok navigable typed fieldFound).mpr
        ⟨none, between, attempted, Or.inr ⟨rfl, navigated⟩⟩⟩

/-- A path compiles wherever the treats before the joins do not matter. -/
theorem compileRoute_of_treatsAgree
    {id : NodeId}
    {route : Route}
    {selected : Bool}
    (ready : context.Ready tree types before)
    (leads : Route.Leads tree id route)
    (declared : ∀ source ∈ route.sources, ∃ vertex, context.sources.find? source = some vertex)
    (navigable : route.Navigable context.schema types true)
    (agrees : route.TreatsAgree context.schema types selected) :
    ∃ path after, context.compileRoute route true selected before = .ok path after := by
  induction leads with
  | origin found notJoin =>
      obtain ⟨vertexId, vertexDeclared⟩ := declared _ List.mem_cons_self
      exact ⟨_, _, compileRoute_origin_eq_ok.mpr ⟨vertexId, vertexDeclared, rfl, rfl⟩⟩
  | join found isJoin leads =>
      exact compileRoute_join_of_agrees ready (.join found isJoin leads) declared navigable agrees
  | @field node parent name above found leads =>
      obtain ⟨navigableAbove, type, typed, field, fieldFound, -⟩ := navigable
      have last := Route.lastField?_eq_some typed fieldFound
      simp only [Route.TreatsAgree, last, Option.any_some] at agrees
      cases isIdentifier : field.isIdentifier with
      | true =>
          rw [isIdentifier, if_pos rfl] at agrees
          exact compileRoute_identifier_of_agrees ready leads declared navigableAbove typed
            fieldFound isIdentifier agrees
      | false =>
          rw [isIdentifier, if_neg Bool.false_ne_true] at agrees
          have attempted : context.attemptField above name field true before =
              .ok none before := by
            unfold attemptField
            rw [isIdentifier]
            rfl
          obtain ⟨path, after, navigated⟩ := navigateField_of_agrees ready leads declared
            navigableAbove typed fieldFound agrees
          exact ⟨path, after, (ready.compileRoute_field_eq_ok navigableAbove typed
            fieldFound).mpr ⟨none, before, attempted, Or.inr ⟨rfl, navigated⟩⟩⟩
  | treat found leads inductionHypothesis =>
      obtain ⟨path, after, done⟩ := inductionHypothesis declared navigable.2 agrees
      obtain ⟨type, typeFound⟩ := Option.isSome_iff_exists.mp navigable.1
      exact ⟨_, after, compileRoute_treat_eq_ok.mpr
        ⟨type, path, Schema.requireRecordType_eq_ok.mpr typeFound, done, rfl⟩⟩

end PathContext
end QueryGraph
