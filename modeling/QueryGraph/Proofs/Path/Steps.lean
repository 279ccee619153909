import QueryGraph.Path.Compile
import QueryGraph.Proofs.Graph.Declarations
import QueryGraph.Proofs.Tree.Evolution

/-!
# The steps of compiling paths

What each step did when it succeeded, in terms of the steps that it consists of.
-/

namespace QueryGraph
namespace PathCompiling

variable {before after : JoinGraph}

theorem require_eq_ok
    {result : Except CompileError α}
    {value : α} :
    require result before = .ok value after ↔ result = .ok value ∧ after = before := by
  cases result with
  | error error =>
      change EStateM.Result.error error before = _ ↔ _
      simp
  | ok found =>
      change EStateM.Result.ok found before = _ ↔ _
      simp only [EStateM.Result.ok.injEq, Except.ok.injEq, eq_comm (a := after)]

theorem use_apply
    (vertex : VertexId)
    (graph : JoinGraph) :
    use vertex graph = .ok () (graph.setUsed vertex) := rfl

end PathCompiling

namespace PathContext

variable {context : PathContext} {before after : JoinGraph}

/-! ## Questions about joins -/

theorem sourceVertex_eq_ok
    {source : NodeId}
    {vertex : VertexId} :
    context.sourceVertex source = .ok vertex ↔ context.sources.find? source = some vertex := by
  unfold sourceVertex
  cases context.sources.find? source <;> simp

theorem standsForJoin_eq_ok
    {owner : Route}
    {field : String}
    {direction : JoinDirection}
    {stands : Bool} :
    context.standsForJoin owner field direction before = .ok stands after ↔
      after = before ∧ ∃ ownerType declared, context.recordType before owner = .ok ownerType ∧
        context.schema.requireField ownerType field = .ok declared ∧
        stands = (declared.isToOne &&
          (direction = .left || context.strictSchema && declared.isGuaranteedPresent)) := by
  unfold standsForJoin
  rw [Operation.bind_of_ok (Operation.get_apply before)]
  simp only [Operation.bind_eq_ok, PathCompiling.require_eq_ok, Operation.pure_apply,
    EStateM.Result.ok.injEq]
  constructor
  · rintro ⟨ownerType, _, ⟨typed, rfl⟩, declared, _, ⟨found, rfl⟩, rfl, rfl⟩
    exact ⟨rfl, ownerType, declared, typed, found, rfl⟩
  · rintro ⟨rfl, ownerType, declared, typed, found, rfl⟩
    exact ⟨ownerType, _, ⟨typed, rfl⟩, declared, _, ⟨found, rfl⟩, rfl, rfl⟩

theorem implicitJoin_eq_ok
    {parent vertex : VertexId}
    {field : String} :
    context.implicitJoin parent field before = .ok vertex after ↔
      ∃ target resolution,
        context.schema.relationTarget (Graphing.typeOf before parent) field = .ok target ∧
        JoinGraph.resolve parent { field := field, targetType := target, origin := .implicit }
          before = .ok resolution after ∧
        vertex = resolution.id := by
  unfold implicitJoin
  rw [Operation.bind_of_ok (Operation.get_apply before)]
  simp only [Operation.bind_eq_ok, PathCompiling.require_eq_ok, Operation.pure_apply,
    EStateM.Result.ok.injEq]
  constructor
  · rintro ⟨target, _, ⟨leads, rfl⟩, resolution, _, resolved, rfl, rfl⟩
    exact ⟨target, resolution, leads, resolved, rfl⟩
  · rintro ⟨target, resolution, leads, resolved, rfl⟩
    exact ⟨target, _, ⟨leads, rfl⟩, resolution, _, resolved, rfl, rfl⟩

/-! ## Routes -/

variable {leaf selected : Bool} {path : CompiledPath}

theorem compileRoute_origin_eq_ok
    {source : NodeId} :
    context.compileRoute (.origin source) leaf selected before = .ok path after ↔
      ∃ vertex, context.sources.find? source = some vertex ∧ path = .toVertex vertex none ∧
        after = before.setUsed vertex := by
  rw [compileRoute]
  simp only [Operation.bind_eq_ok, PathCompiling.require_eq_ok, PathCompiling.use_apply,
    Operation.pure_apply, EStateM.Result.ok.injEq, sourceVertex_eq_ok]
  constructor
  · rintro ⟨vertex, _, ⟨found, rfl⟩, _, _, ⟨-, rfl⟩, rfl, rfl⟩
    exact ⟨vertex, found, rfl, rfl⟩
  · rintro ⟨vertex, found, rfl, rfl⟩
    exact ⟨vertex, before, ⟨found, rfl⟩, (), _, ⟨trivial, rfl⟩, rfl, rfl⟩

theorem compileRoute_join_eq_ok
    {parent : Route}
    {source : NodeId}
    {field : String}
    {direction : JoinDirection} :
    context.compileRoute (.join parent source field direction) leaf selected before =
        .ok path after ↔
      ∃ stands,
        (if leaf && !selected then
          context.standsForJoin parent field direction before = .ok stands before
        else stands = false) ∧
        ((stands = true ∧ ∃ above,
          context.compileRoute parent false false before = .ok above after ∧
          path = .toField field above) ∨
        stands = false ∧ ∃ vertex above, context.sources.find? source = some vertex ∧
          context.compileRoute parent false false (before.setUsed vertex) = .ok above after ∧
          path = .toVertex vertex (some above)) := by
  have asVertex :
      (do
        let vertex ← PathCompiling.require (context.sourceVertex source)
        PathCompiling.use vertex
        return CompiledPath.toVertex vertex (some (← context.compileRoute parent false false)) :
          PathCompiling CompiledPath) before = .ok path after ↔
        ∃ vertex above, context.sources.find? source = some vertex ∧
          context.compileRoute parent false false (before.setUsed vertex) = .ok above after ∧
          path = .toVertex vertex (some above) := by
    simp only [Operation.bind_eq_ok, PathCompiling.require_eq_ok, PathCompiling.use_apply,
      Operation.pure_apply, EStateM.Result.ok.injEq, sourceVertex_eq_ok]
    constructor
    · rintro ⟨vertex, _, ⟨found, rfl⟩, _, _, ⟨-, rfl⟩, above, _, done, rfl, rfl⟩
      exact ⟨vertex, above, found, done, rfl⟩
    · rintro ⟨vertex, above, found, done, rfl⟩
      exact ⟨vertex, before, ⟨found, rfl⟩, (), _, ⟨trivial, rfl⟩, above, after, done, rfl, rfl⟩
  rw [compileRoute]
  cases mayStand : leaf && !selected with
  | false =>
      simp only [Bool.false_eq_true, if_false, exists_eq_left, false_and, false_or, true_and]
      exact asVertex
  | true =>
      simp only [if_true]
      constructor
      · intro done
        obtain ⟨stands, between, asked, rest⟩ := Operation.bind_eq_ok.mp done
        obtain ⟨rfl, -⟩ := standsForJoin_eq_ok.mp asked
        refine ⟨stands, asked, ?_⟩
        cases stands with
        | true =>
            obtain ⟨above, _, aboveDone, last⟩ := Operation.bind_eq_ok.mp rest
            cases last
            exact Or.inl ⟨rfl, above, aboveDone, rfl⟩
        | false => exact Or.inr ⟨rfl, asVertex.mp rest⟩
      · rintro ⟨stands, asked, ⟨rfl, above, aboveDone, rfl⟩ | ⟨rfl, rest⟩⟩
        · rw [Operation.bind_of_ok asked]
          exact Operation.bind_eq_ok.mpr ⟨above, after, aboveDone, rfl⟩
        · rw [Operation.bind_of_ok asked]
          exact asVertex.mpr rest

theorem compileRoute_treat_eq_ok
    {target : Route}
    {asType : String} :
    context.compileRoute (.treat target asType) leaf selected before = .ok path after ↔
      ∃ declared inner, context.schema.requireRecordType asType = .ok declared ∧
        context.compileRoute target leaf selected before = .ok inner after ∧
        path = inner.treat asType := by
  rw [compileRoute]
  simp only [Operation.bind_eq_ok, PathCompiling.require_eq_ok, Operation.pure_apply,
    EStateM.Result.ok.injEq]
  constructor
  · rintro ⟨declared, _, ⟨found, rfl⟩, inner, _, done, rfl, rfl⟩
    exact ⟨declared, inner, found, done, rfl⟩
  · rintro ⟨declared, inner, found, done, rfl⟩
    exact ⟨declared, before, ⟨found, rfl⟩, inner, after, done, rfl, rfl⟩

/-- The first attempt at a field: an identifier at the end of a path may collapse. -/
def attemptField
    (context : PathContext)
    (parent : Route)
    (name : String)
    (field : Field)
    (leaf : Bool) : PathCompiling (Option CompiledPath) :=
  if leaf && field.isIdentifier then context.collapseIdentifier parent name
  else return none

/-- What becomes of a field that did not collapse. -/
def navigateField
    (context : PathContext)
    (parent : Route)
    (name parentType : String)
    (field : Field)
    (leaf selected : Bool) : PathCompiling CompiledPath := do
  if field.isRelation && (!leaf || (selected && field.isToOne)) then
    let path ← context.compileRoute parent false false
    match path.leaf.vertex? with
    | none => throw (.invalidNavigation parentType name .parentNotJoined)
    | some above =>
        let vertex ← context.implicitJoin above name
        PathCompiling.use vertex
        return .toVertex vertex (some path)
  else if !leaf then
    throw (.invalidNavigation parentType name .scalarNavigated)
  else
    return .toField name (← context.compileRoute parent false false)

theorem navigateField_eq_ok
    {parent : Route}
    {name parentType : String}
    {field : Field} :
    context.navigateField parent name parentType field leaf selected before = .ok path after ↔
      if field.isRelation && (!leaf || (selected && field.isToOne)) then
        ∃ above middle owner vertex grown,
          context.compileRoute parent false false before = .ok above middle ∧
          above.leaf.vertex? = some owner ∧
          context.implicitJoin owner name middle = .ok vertex grown ∧
          path = .toVertex vertex (some above) ∧ after = grown.setUsed vertex
      else
        leaf = true ∧ ∃ above, context.compileRoute parent false false before = .ok above after ∧
          path = .toField name above := by
  unfold navigateField
  cases field.isRelation && (!leaf || (selected && field.isToOne)) with
  | true =>
      simp only [if_true, Operation.bind_eq_ok]
      constructor
      · rintro ⟨above, middle, aboveDone, last⟩
        cases owner : above.leaf.vertex? with
        | none =>
            rw [owner] at last
            cases last
        | some vertex =>
            rw [owner] at last
            obtain ⟨joined, grown, joinDone, last⟩ := Operation.bind_eq_ok.mp last
            cases last
            exact ⟨above, middle, vertex, joined, grown, aboveDone, owner, joinDone, rfl, rfl⟩
      · rintro ⟨above, middle, owner, vertex, grown, aboveDone, isOwner, joinDone, rfl, rfl⟩
        refine ⟨above, middle, aboveDone, ?_⟩
        rw [isOwner]
        exact Operation.bind_eq_ok.mpr ⟨vertex, grown, joinDone, rfl⟩
  | false =>
      simp only [Bool.false_eq_true, if_false]
      cases leaf with
      | false => simp
      | true =>
          simp only [Bool.not_true, Bool.false_eq_true, if_false, true_and,
            Operation.bind_eq_ok, Operation.pure_apply, EStateM.Result.ok.injEq]
          constructor
          · rintro ⟨above, _, aboveDone, rfl, rfl⟩
            exact ⟨above, aboveDone, rfl⟩
          · rintro ⟨above, aboveDone, rfl⟩
            exact ⟨above, after, aboveDone, rfl, rfl⟩

/-- A field that was not collapsed is navigated to. -/
def settleField
    (context : PathContext)
    (parent : Route)
    (name parentType : String)
    (field : Field)
    (leaf selected : Bool) : Option CompiledPath -> PathCompiling CompiledPath
  | some path => return path
  | none => context.navigateField parent name parentType field leaf selected

theorem settleField_eq_ok
    {parent : Route}
    {name parentType : String}
    {field : Field}
    {collapsed : Option CompiledPath} :
    context.settleField parent name parentType field leaf selected collapsed before =
        .ok path after ↔
      (collapsed = some path ∧ after = before) ∨
      collapsed = none ∧
        context.navigateField parent name parentType field leaf selected before =
          .ok path after := by
  cases collapsed with
  | none => simp only [settleField, reduceCtorEq, false_and, false_or, true_and]
  | some found =>
      simp only [settleField, Operation.pure_apply, EStateM.Result.ok.injEq, Option.some.injEq,
        reduceCtorEq, false_and, or_false, eq_comm (a := after)]

/-- Compiling a field looks it up, attempts to collapse it, and settles what that leaves. -/
theorem compileRoute_field
    (context : PathContext)
    (parent : Route)
    (name : String)
    (leaf selected : Bool) :
    context.compileRoute (.field parent name) leaf selected = (do
      let parentType ← PathCompiling.require (context.recordType (← get) parent)
      let field ← PathCompiling.require (context.schema.requireField parentType name)
      let collapsed ← context.attemptField parent name field leaf
      context.settleField parent name parentType field leaf selected collapsed) := by
  rw [compileRoute]
  refine bind_congr fun graph => bind_congr fun parentType => bind_congr fun field => ?_
  unfold attemptField
  cases leaf && field.isIdentifier <;> refine bind_congr fun collapsed => ?_ <;>
    cases collapsed <;> rfl

theorem compileRoute_field_eq_ok
    {parent : Route}
    {name : String} :
    context.compileRoute (.field parent name) leaf selected before = .ok path after ↔
      ∃ parentType field collapsed between,
        context.recordType before parent = .ok parentType ∧
        context.schema.requireField parentType name = .ok field ∧
        context.attemptField parent name field leaf before = .ok collapsed between ∧
        ((collapsed = some path ∧ after = between) ∨
        collapsed = none ∧
          context.navigateField parent name parentType field leaf selected between =
            .ok path after) := by
  rw [compileRoute_field, Operation.bind_of_ok (Operation.get_apply before)]
  constructor
  · intro done
    obtain ⟨parentType, current, asked, fieldDone⟩ := Operation.bind_eq_ok.mp done
    obtain ⟨typed, rfl⟩ := PathCompiling.require_eq_ok.mp asked
    obtain ⟨field, same, required, attemptDone⟩ := Operation.bind_eq_ok.mp fieldDone
    obtain ⟨found, rfl⟩ := PathCompiling.require_eq_ok.mp required
    obtain ⟨collapsed, between, attempt, last⟩ := Operation.bind_eq_ok.mp attemptDone
    exact ⟨parentType, field, collapsed, between, typed, found, attempt, settleField_eq_ok.mp last⟩
  · rintro ⟨parentType, field, collapsed, between, typed, found, attempt, last⟩
    rw [Operation.bind_of_ok (PathCompiling.require_eq_ok.mpr ⟨typed, rfl⟩),
      Operation.bind_of_ok (PathCompiling.require_eq_ok.mpr ⟨found, rfl⟩)]
    exact Operation.bind_eq_ok.mpr ⟨collapsed, between, attempt, settleField_eq_ok.mpr last⟩

/-! ## Identifiers -/

variable {identifier : String} {collapsed : Option CompiledPath}

theorem collapseIdentifier_join_eq_ok
    {owner : Route}
    {source : NodeId}
    {field : String}
    {direction : JoinDirection} :
    context.collapseIdentifier (.join owner source field direction) identifier before =
        .ok collapsed after ↔
      ∃ stands, context.standsForJoin owner field direction before = .ok stands before ∧
        ((stands = true ∧ ∃ inner, context.compileRoute owner false false before = .ok inner after ∧
          collapsed = some (.toField identifier (.toField field inner))) ∨
        stands = false ∧ collapsed = none ∧ after = before) := by
  rw [collapseIdentifier]
  constructor
  · intro done
    obtain ⟨stands, between, asked, rest⟩ := Operation.bind_eq_ok.mp done
    obtain ⟨rfl, -⟩ := standsForJoin_eq_ok.mp asked
    refine ⟨stands, asked, ?_⟩
    cases stands with
    | true =>
        obtain ⟨inner, _, innerDone, last⟩ := Operation.bind_eq_ok.mp rest
        cases last
        exact Or.inl ⟨rfl, inner, innerDone, rfl⟩
    | false =>
        cases rest
        exact Or.inr ⟨rfl, rfl, rfl⟩
  · rintro ⟨stands, asked, ⟨rfl, inner, innerDone, rfl⟩ | ⟨rfl, rfl, rfl⟩⟩
    · rw [Operation.bind_of_ok asked]
      exact Operation.bind_eq_ok.mpr ⟨inner, after, innerDone, rfl⟩
    · rw [Operation.bind_of_ok asked]
      rfl

theorem collapseIdentifier_field_eq_ok
    {owner : Route}
    {name : String} :
    context.collapseIdentifier (.field owner name) identifier before = .ok collapsed after ↔
      ∃ ownerType relation, context.recordType before owner = .ok ownerType ∧
        context.schema.requireField ownerType name = .ok relation ∧
        ((relation.isToOne = true ∧ ∃ inner,
          context.compileRoute owner false false before = .ok inner after ∧
          collapsed = some (.toField identifier (.toField name inner))) ∨
        relation.isToOne = false ∧ collapsed = none ∧ after = before) := by
  rw [collapseIdentifier, Operation.bind_of_ok (Operation.get_apply before)]
  simp only [Operation.bind_eq_ok, PathCompiling.require_eq_ok]
  constructor
  · rintro ⟨ownerType, _, ⟨typed, rfl⟩, relation, _, ⟨found, rfl⟩, rest⟩
    refine ⟨ownerType, relation, typed, found, ?_⟩
    cases toOne : relation.isToOne with
    | true =>
        rw [toOne] at rest
        obtain ⟨inner, _, innerDone, last⟩ := Operation.bind_eq_ok.mp rest
        cases last
        exact Or.inl ⟨rfl, inner, innerDone, rfl⟩
    | false =>
        rw [toOne] at rest
        cases rest
        exact Or.inr ⟨rfl, rfl, rfl⟩
  · rintro ⟨ownerType, relation, typed, found, ⟨toOne, inner, innerDone, rfl⟩ | ⟨toOne, rfl, rfl⟩⟩
    · refine ⟨ownerType, before, ⟨typed, rfl⟩, relation, before, ⟨found, rfl⟩, ?_⟩
      rw [toOne]
      exact Operation.bind_eq_ok.mpr ⟨inner, after, innerDone, rfl⟩
    · refine ⟨ownerType, after, ⟨typed, rfl⟩, relation, after, ⟨found, rfl⟩, ?_⟩
      rw [toOne]
      rfl

/-! ## Paths -/

theorem compilePath_eq_ok
    {tree : Tree}
    {identity : PathIdentity}
    {path : CompiledPath} :
    context.compilePath tree identity before = .ok path after ↔
      ∃ route, tree.route identity.node = .ok route ∧
        context.compileRoute route true identity.isDirectlySelected before = .ok path after := by
  unfold compilePath
  simp only [Operation.bind_eq_ok, PathCompiling.require_eq_ok, Operation.mapError_eq_ok]
  constructor
  · rintro ⟨route, before, ⟨found, rfl⟩, done⟩
    exact ⟨route, found, done⟩
  · rintro ⟨route, found, done⟩
    exact ⟨route, before, ⟨found, rfl⟩, done⟩

theorem compilePaths_cons_eq_ok
    {tree : Tree}
    {identity : PathIdentity}
    {identities : List PathIdentity}
    {paths : List (PathIdentity × CompiledPath)} :
    context.compilePaths tree (identity :: identities) before = .ok paths after ↔
      ∃ path between rest, context.compilePath tree identity before = .ok path between ∧
        context.compilePaths tree identities between = .ok rest after ∧
        paths = (identity, path) :: rest := by
  unfold compilePaths
  rw [List.mapM_cons]
  simp only [Operation.bind_eq_ok, Operation.pure_apply, EStateM.Result.ok.injEq]
  constructor
  · rintro ⟨_, between, ⟨path, _, done, rfl, rfl⟩, rest, _, restDone, rfl, rfl⟩
    exact ⟨path, _, rest, done, restDone, rfl⟩
  · rintro ⟨path, between, rest, done, restDone, rfl⟩
    exact ⟨_, between, ⟨path, between, done, rfl, rfl⟩, rest, after, restDone, rfl, rfl⟩

/-- Compiled paths are listed with the occurrences that they are compiled for. -/
theorem identities_of_compilePaths
    {tree : Tree}
    {identities : List PathIdentity}
    {paths : List (PathIdentity × CompiledPath)}
    (done : context.compilePaths tree identities before = .ok paths after) :
    paths.map Prod.fst = identities := by
  induction identities generalizing before paths with
  | nil =>
      cases done
      rfl
  | cons identity identities inductionHypothesis =>
      obtain ⟨path, between, rest, -, restDone, rfl⟩ := compilePaths_cons_eq_ok.mp done
      rw [List.map_cons, inductionHypothesis restDone]

/-- Paths compile in every later tree as they did before. -/
theorem compilePaths_of_evolves
    {earlier later : Tree}
    {identities : List PathIdentity}
    {paths : List (PathIdentity × CompiledPath)}
    {graph grown : JoinGraph}
    (evolves : earlier.Evolves later)
    (done : context.compilePaths earlier identities graph = .ok paths grown) :
    context.compilePaths later identities graph = .ok paths grown := by
  induction identities generalizing graph paths with
  | nil => exact done
  | cons identity identities inductionHypothesis =>
      obtain ⟨path, between, rest, pathDone, restDone, rfl⟩ := compilePaths_cons_eq_ok.mp done
      obtain ⟨route, found, routeDone⟩ := compilePath_eq_ok.mp pathDone
      exact compilePaths_cons_eq_ok.mpr ⟨path, between, rest,
        compilePath_eq_ok.mpr ⟨route, evolves.route found, routeDone⟩,
        inductionHypothesis restDone, rfl⟩

end PathContext
end QueryGraph
