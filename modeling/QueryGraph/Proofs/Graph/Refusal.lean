import QueryGraph.Proofs.Graph.Typed
import QueryGraph.Proofs.Tree.Depth

/-!
# Why joins and fetches are refused

A declared join is refused because the schema does not lead where it goes, or because it cannot
share the edge that is there. An implicit one shares only edges that it may share, and a fetch
shares nothing that was declared, so both are refused for the schema alone.
-/

namespace QueryGraph

open Operation

/-- A failed look-up in the schema: a name that it does not have, or a field that does not lead
where a path goes. -/
inductive CompileError.FailsLookup : CompileError -> Prop
  | recordType (name : String) : FailsLookup (.unknownRecordType name)
  | field (recordType name : String) : FailsLookup (.unknownField recordType name)
  | navigation {fault : NavigationFault}
      (recordType name : String)
      (joined : fault ≠ .parentNotJoined) :
      FailsLookup (.invalidNavigation recordType name fault)

/-- A declared join that cannot share the edge that is there. -/
inductive CompileError.FailsMerge : CompileError -> Prop
  | condition (field : String) : FailsMerge (.onConditionOnMergedJoin field)
  | aliases (field existing requested : String) :
      FailsMerge (.conflictingAliases field existing requested)

/-- A declaration that the schema or an earlier one contradicts. -/
def CompileError.FailsDeclaration (error : CompileError) : Prop :=
  error.FailsLookup ∨ error.FailsMerge

open CompileError (FailsLookup FailsMerge FailsDeclaration)

namespace Schema

variable {schema : Schema} {recordType name : String} {error : CompileError}

theorem failsLookup_of_requireRecordType
    (refused : schema.requireRecordType name = .error error) :
    error.FailsLookup := by
  unfold requireRecordType Schema.recordType at refused
  cases found : schema.recordType? name with
  | some declared =>
      rw [found] at refused
      cases refused
  | none =>
      rw [found] at refused
      cases refused
      exact .recordType name

theorem failsLookup_of_requireField
    (refused : schema.requireField recordType name = .error error) :
    error.FailsLookup := by
  unfold requireField Schema.field Schema.recordType at refused
  cases found : schema.recordType? recordType with
  | none =>
      rw [found] at refused
      cases refused
      exact .recordType recordType
  | some declared =>
      rw [found] at refused
      cases fieldFound : declared.field? name with
      | some field =>
          simp only [fieldFound] at refused
          cases refused
      | none =>
          simp only [fieldFound] at refused
          cases refused
          exact .field recordType name

theorem failsLookup_of_relationTarget
    (refused : schema.relationTarget recordType name = .error error) :
    error.FailsLookup := by
  unfold relationTarget at refused
  cases required : schema.requireField recordType name with
  | error other =>
      rw [required] at refused
      cases refused
      exact failsLookup_of_requireField required
  | ok field =>
      rw [required] at refused
      cases leads : field.target? with
      | some target => simp [bind, Except.bind, leads, pure, Except.pure] at refused
      | none =>
          simp only [bind, Except.bind, leads] at refused
          cases refused
          exact .navigation recordType name nofun

end Schema

/-! ## Requests -/

theorem Vertex.failsMerge_of_mergeFault?
    {vertex : Vertex}
    {request : JoinRequest}
    {error : CompileError}
    (refused : vertex.mergeFault? request = some error) :
    error.FailsMerge := by
  unfold mergeFault? at refused
  split at refused
  · cases refused
    exact .condition request.field
  · split at refused
    · split at refused
      · cases refused
      · cases refused
        exact .aliases _ _ _
    · cases refused

namespace JoinGraph

variable {before : JoinGraph} {parent : VertexId} {request : JoinRequest}

/-- A request is refused only because of the edge that it would share. -/
theorem failsMerge_of_resolve
    {after : JoinGraph}
    {error : CompileError}
    (refused : resolve parent request before = .error error after) :
    error.FailsMerge := by
  unfold resolve at refused
  rw [bind_of_ok (get_apply before)] at refused
  cases reuses : before.candidate? parent request with
  | none =>
      simp only [reuses] at refused
      cases refused
  | some existing =>
      simp only [reuses] at refused
      cases faulty : (before.vertex? existing).bind fun vertex => vertex.mergeFault? request with
      | none =>
          simp only [faulty] at refused
          cases refused
      | some fault =>
          simp only [faulty] at refused
          cases refused
          obtain ⟨vertex, -, isFault⟩ := Option.bind_eq_some_iff.mp faulty
          exact vertex.failsMerge_of_mergeFault? isFault

/-- What an implicit request may reuse has no condition, and the request asks for no alias. So it
is never refused. -/
theorem exists_resolve_implicit
    (graph : JoinGraph)
    (parent : VertexId)
    (field target : String) :
    ∃ resolution after, resolve parent
      { field := field, targetType := target, origin := .implicit } graph =
        .ok resolution after := by
  unfold resolve
  rw [bind_of_ok (get_apply graph)]
  cases reuses : graph.candidate? parent
      { field := field, targetType := target, origin := .implicit } with
  | none => exact ⟨_, _, rfl⟩
  | some existing =>
      have free : ((graph.vertex? existing).bind fun vertex => vertex.mergeFault?
          { field := field, targetType := target, origin := .implicit }) = none := by
        unfold candidate? findMergeable at reuses
        have mergeable := List.find?_some reuses
        cases found : graph.vertex? existing with
        | none => rfl
        | some vertex =>
            simp only [found, Option.any_some, Vertex.isMergeable, reduceCtorEq, decide_false,
              Bool.false_or, Bool.and_eq_true] at mergeable
            obtain ⟨-, bare⟩ := mergeable
            simp [Vertex.mergeFault?, Option.isNone_iff_eq_none.mp bare]
      simp only [free]
      exact ⟨_, _, rfl⟩

end JoinGraph

/-! ## Declarations -/

namespace Graphing

variable {schema : Schema} {before : GraphState}

/-- Declared joins are refused for the schema or for an edge that they would share. -/
theorem refusal_buildJoins
    {tree : Tree}
    {parent : VertexId}
    {joins : List SourceTree}
    (areJoins : ∀ join ∈ joins, join.ReadFrom tree ∧
      ∃ owner statement, tree.JoinOf owner statement join.id)
    (placed : tree.Placed) :
    Ends (fun _ _ => True) FailsDeclaration
      (buildJoins schema parent joins before) := by
  induction parent, joins using buildJoins.induct generalizing before with
  | case1 parent =>
      rw [buildJoins]
      trivial
  | case2 parent node source fetches joins rest above field direction mode on isJoin
      joinsHypothesis restHypothesis =>
      obtain ⟨read, -⟩ := areJoins _ List.mem_cons_self
      obtain ⟨found, -, innerRead, -⟩ := SourceTree.readFrom_mk read
      rw [buildJoins]
      simp only [isJoin]
      refine Ends.bind_ok (recordType_apply parent before) ?_
      refine Ends.bind (ends_require (fun target _ => ?_) fun error refused =>
        Or.inl (Schema.failsLookup_of_relationTarget refused))
      refine Ends.bind (ends_onGraph ?_)
      cases resolved : JoinGraph.resolve parent _ before.graph with
      | error error graph => exact Or.inr (JoinGraph.failsMerge_of_resolve resolved)
      | ok resolution graph =>
          refine Ends.bind_ok rfl (Ends.bind ((joinsHypothesis resolution fun join member => ?_).imp
            ?_ fun _ same => same))
          · exact ⟨(innerRead join member).1, node, source.statement,
              (placed node _ found).2.2 join.id (innerRead join member).2⟩
          · exact fun _ _ _ => restHypothesis fun join member =>
              areJoins join (List.mem_cons_of_mem _ member)
  | case3 parent node source fetches joins rest notJoin =>
      obtain ⟨read, owner, statement, body, field, direction, mode, on, found, -, isJoin⟩ :=
        areJoins _ List.mem_cons_self
      obtain ⟨again, -⟩ := SourceTree.readFrom_mk read
      change tree.node? node = _ at found
      rw [again] at found
      cases found
      exact absurd isJoin (notJoin owner field direction mode on)

/-- A root is refused for the schema, or because of a join below it. -/
theorem refusal_buildRoot
    {tree : Tree}
    {statement : NodeId}
    {source : SourceTree}
    (placed : tree.Placed)
    (read : source.ReadFrom tree)
    (isRoot : tree.HasRoot statement source.id) :
    Ends (fun _ _ => True) FailsDeclaration (buildRoot schema source before) := by
  obtain ⟨id, body, fetches, joins⟩ := source
  obtain ⟨found, -, innerRead, -⟩ := SourceTree.readFrom_mk read
  obtain ⟨other, recordType, again, kind, -⟩ := isRoot
  change tree.node? id = _ at again
  rw [found] at again
  cases again
  rw [buildRoot]
  simp only [kind]
  refine Ends.bind (ends_require (fun _ _ => ?_) fun error refused =>
    Or.inl (Schema.failsLookup_of_requireRecordType refused))
  refine Ends.bind_ok rfl (Ends.bind_ok rfl (Ends.bind_ok rfl (Ends.bind
    ((refusal_buildJoins (fun join member => ?_) placed).imp ?_ fun _ same => same))))
  · exact ⟨(innerRead join member).1, id, body.statement,
      (placed id _ found).2.2 join.id (innerRead join member).2⟩
  · exact fun _ _ _ => trivial

/-! ## Fetches -/

mutual

/-- A fetch is refused for the schema alone. -/
theorem refusal_mergeFetch
    {before : GraphState}
    {parent : VertexId} :
    (fetch : FetchTree) ->
    Ends (fun _ _ => True) FailsLookup (mergeFetch schema parent fetch before)
  | .mk id name direction collection nested => by
      rw [mergeFetch]
      refine Ends.bind_ok (recordType_apply parent before) ?_
      refine Ends.bind (ends_require (fun field _ => ?_) fun error refused =>
        Schema.failsLookup_of_requireField refused)
      cases field.target? with
      | none => exact .navigation _ name nofun
      | some target =>
          exact Ends.bind_ok rfl (Ends.bind_ok rfl (Ends.bind_ok rfl (refusal_mergeFetches nested)))

theorem refusal_mergeFetches
    {before : GraphState}
    {parent : VertexId} :
    (fetches : List FetchTree) ->
    Ends (fun _ _ => True) FailsLookup (mergeFetches schema parent fetches before)
  | [] => by
      rw [mergeFetches]
      trivial
  | fetch :: fetches => by
      rw [mergeFetches]
      refine Ends.bind ((refusal_mergeFetch fetch).imp ?_ fun _ same => same)
      exact fun _ _ _ => refusal_mergeFetches fetches

end

/-- The fetches of declared sources can be read, and are refused for the schema alone. -/
theorem refusal_mergeAllFetches
    {tree : Tree}
    {sources : DeclarationMap}
    (orderly : tree.Orderly)
    (areSources : ∀ entry ∈ sources.entries, ∃ body,
      tree.node? entry.1 = some (.source body)) :
    Ends (fun _ _ => True) FailsLookup
      (mergeAllFetches schema tree sources before) := by
  unfold mergeAllFetches
  refine Ends.forM (fun _ => True) ?_ trivial
  rintro ⟨source, vertex⟩ member state -
  obtain ⟨body, found⟩ := areSources _ member
  obtain ⟨fetches, read⟩ := FetchTree.exists_mapM_ofNode orderly found
  refine Ends.bind (ends_require (fun fetches _ => refusal_mergeFetches fetches) ?_)
  intro error refused
  rw [Tree.fetchTrees_eq_ok.mpr ⟨body, found, read⟩] at refused
  cases refused

end Graphing
end QueryGraph
