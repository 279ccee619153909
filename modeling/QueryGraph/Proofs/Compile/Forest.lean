import Mathlib
import QueryGraph.Proofs.Compile.History
import QueryGraph.Proofs.Path.Blame
import QueryGraph.Proofs.Walk.Blame

/-!
# Results are typed forests

The graph of a result is a forest below the listed roots, and a validated schema gives every
vertex its type. Whether or not a tree compiles against such a schema, only a record type that
the tree names can turn out to be unknown.
-/

namespace QueryGraph

open Operation

namespace JoinGraph

variable {graph : JoinGraph} {schema : Schema} {id above : VertexId} {vertex : Vertex}

/-- Everything below a vertex of a coherent forest has its statement. -/
theorem Coherent.statement_of_under
    (coherent : graph.Coherent schema)
    (forest : graph.Forest)
    (under : graph.Under id above)
    (found : graph.vertex? above = some vertex) :
    ∃ below, graph.vertex? id = some below ∧ below.statement = vertex.statement := by
  induction under using Relation.ReflTransGen.head_induction_on with
  | refl => exact ⟨vertex, found, rfl⟩
  | head hangs _ inductionHypothesis =>
      obtain ⟨next, nextFound, same⟩ := inductionHypothesis
      obtain ⟨again, foundAgain, listed⟩ := mem_children.mp (forest.listed.mpr hangs)
      rw [nextFound] at foundAgain
      cases foundAgain
      obtain ⟨below, -, belowFound, statement, -⟩ := coherent _ next nextFound _ listed
      exact ⟨below, belowFound, statement.trans same⟩

end JoinGraph

/-- Fetches that are given vertices leave a typed graph. -/
theorem GraphState.Fetches.typed
    {schema : Schema}
    {tree : Tree}
    {before after : GraphState}
    (closed : schema.Closed)
    (fetches : GraphState.Fetches schema tree before after)
    (typed : before.graph.Typed schema) :
    after.graph.Typed schema := by
  induction fetches with
  | refl => exact typed
  | tail _ step inductionHypothesis =>
      obtain ⟨-, -, older, required, leads, fetched⟩ := step
      exact (JoinGraph.retouched_setFetched _ _).typed
        (JoinGraph.typed_fetchVertex closed inductionHypothesis older required leads fetched)

namespace CompiledGraph

/-- A result whose graph is a forest below the listed roots, with the types that a schema gives
to it. -/
structure IsTypedForest
    (compiled : CompiledGraph)
    (schema : Schema) : Prop where
  /-- A vertex lists those that hang off it. -/
  linked : ∀ {id parent}, id ∈ compiled.graph.children parent ↔ compiled.graph.HangsOff id parent
  older : ∀ {id parent}, compiled.graph.HangsOff id parent -> parent.index < id.index
  /-- The descents from the listed roots meet every vertex once. -/
  reached : (compiled.graph.preorder compiled.roots).Perm compiled.graph.ids
  statement : ∀ {statement roots}, (statement, roots) ∈ compiled.statementRoots ->
    ∀ root ∈ roots, ∀ id ∈ compiled.graph.descend compiled.graph.size root,
      ∃ vertex, compiled.graph.vertex? id = some vertex ∧ vertex.statement = statement
  declares : ∀ {id vertex}, compiled.graph.vertex? id = some vertex ->
    schema.Declares vertex.recordType
  leads : ∀ {id parent}, compiled.graph.HangsOff id parent ->
    ∃ above vertex field, compiled.graph.vertex? parent = some above ∧
      compiled.graph.vertex? id = some vertex ∧ vertex.field = some field ∧
      schema.relationTarget above.recordType field = .ok vertex.recordType

end CompiledGraph

namespace Tree.Course

variable {tree : Tree} {schema : Schema} {config : CompilerConfig} {owner : Owner}
  {compiled : CompiledGraph} {walk : Walk} {graph : JoinGraph} {fetched : GraphState}
  {walked followed : List GraphEvent}
  (course : tree.Course schema config owner compiled walk graph fetched walked followed)

include course

theorem grows_compiled : walk.sources.graph.Grows compiled.graph := by
  obtain ⟨loaded, tells⟩ := course.fetches.tells
  rw [course.graph_eq]
  exact (course.steps.grows.trans tells.steps.grows).trans
    (JoinGraph.retouched_assignLabels _ _ _).grows

theorem rootIds_fetched :
    fetched.graph.rootIds = walk.statementRoots.flatMap Prod.snd := by
  obtain ⟨loaded, tells⟩ := course.fetches.tells
  have rootless : ∀ {id}, GraphEvent.root id ∉ loaded := by
    intro id member
    obtain ⟨_, _, _, _, contrary, -⟩ := tells.declaredBy member
    cases contrary
  rw [tells.steps.rootIds rootless, course.steps.rootIds course.rootless, course.rooted.roots]

theorem roots_eq : compiled.roots = compiled.graph.rootIds := by
  rw [course.graph_eq, JoinGraph.rootIds_assignLabels, course.rootIds_fetched, course.result]
  rfl

theorem typed_compiled (closed : schema.Closed) : compiled.graph.Typed schema := by
  have walkTyped := (Walking.ends_walkTree closed).of_ok course.walkDone
  have paths : Ends (fun _ after => after.Typed schema ∧ walk.sources.graph.size ≤ after.size)
      (·.Blames tree.Names) ((walk.context schema config).compilePaths tree
        walk.allocator.identities walk.sources.graph) :=
    PathContext.ends_compilePaths closed walkTyped.sources.graph walkTyped.sources.present .treat
  have pathsTyped := (paths.of_ok course.paths).1
  rw [course.graph_eq]
  exact (JoinGraph.retouched_assignLabels _ _ _).typed (course.fetches.typed closed pathsTyped)

theorem statement_of_descend
    {statement : NodeId}
    {roots : List VertexId}
    {root id : VertexId}
    (closed : schema.Closed)
    (listed : (statement, roots) ∈ compiled.statementRoots)
    (isRoot : root ∈ roots)
    (met : id ∈ compiled.graph.descend compiled.graph.size root) :
    ∃ vertex, compiled.graph.vertex? id = some vertex ∧ vertex.statement = statement := by
  have listedBefore : (statement, roots) ∈ walk.statementRoots := by
    rw [course.result] at listed
    exact listed
  obtain ⟨start, startFound, here⟩ := course.rooted.statements listedBefore root isRoot
  obtain ⟨last, lastFound, -, -, same⟩ := course.grows_compiled root start startFound
  have under := (JoinGraph.mem_descend course.forest_compiled (Nat.le_add_left _ _)
    (JoinGraph.lt_size_of_vertex? lastFound)).mp met
  obtain ⟨vertex, found, shared⟩ := (course.typed_compiled closed).coherent.statement_of_under
    course.forest_compiled under lastFound
  exact ⟨vertex, found, (shared.trans same).trans here⟩

theorem isTypedForest (closed : schema.Closed) : compiled.IsTypedForest schema where
  linked := course.forest_compiled.listed
  older := course.forest_compiled.older
  reached := by
    rw [course.roots_eq]
    exact JoinGraph.preorder_perm course.forest_compiled course.ordered_compiled
  statement listed root isRoot id met := course.statement_of_descend closed listed isRoot met
  declares found := (course.typed_compiled closed).populated _ _ found
  leads hangs := by
    obtain ⟨above, aboveFound, listed⟩ :=
      JoinGraph.mem_children.mp (course.forest_compiled.listed.mpr hangs)
    obtain ⟨vertex, field, found, -, isField, target⟩ :=
      (course.typed_compiled closed).coherent _ above aboveFound _ listed
    exact ⟨above, vertex, field, aboveFound, found, isField, target⟩

end Tree.Course

namespace Tree

variable {tree held : Tree} {schema : Schema} {config : CompilerConfig} {owner : Owner}

/-- What follows a walk reports an unknown record type only when the tree names it. -/
theorem blames_of_finish
    {walk : Walk}
    {error : CompileError}
    (closed : schema.Closed)
    (listed : tree.Listed)
    (walked : Walking.walkTree schema (tree.startWalk owner) = .ok () walk)
    (failed : walk.finish schema config = .error error) :
    error.Blames tree.Names := by
  have typed := (Walking.ends_walkTree closed).of_ok walked
  obtain ⟨history, recounts⟩ := Walking.recounts_of_walkTree listed walked
  have named : ∀ {name node target}, walk.tree.node? node = some (.treat target name) ->
      tree.Names name := by
    intro name node target found
    rw [Tree.node?_eq_of_nodes typed.nodes] at found
    exact .treat found
  have paths : Ends (fun _ after => after.Typed schema ∧ walk.sources.graph.size ≤ after.size)
      (·.Blames tree.Names) ((walk.context schema config).compilePaths walk.tree
        walk.allocator.identities walk.sources.graph) :=
    PathContext.ends_compilePaths closed typed.sources.graph typed.sources.present named
  rcases Walk.finish_eq_error.mp failed with ⟨graph, refused⟩ | ⟨found, graph, state, done, refused⟩
  · exact paths.of_error refused
  · obtain ⟨graphTyped, larger⟩ := paths.of_ok done
    have started : GraphState.Typed { graph := graph } schema := ⟨graphTyped, fun contrary => by
      cases contrary⟩
    refine (Graphing.ends_mergeAllFetches closed started fun entry member => ?_).of_error refused
    have declared := recounts.faithful _ _ member
    exact Nat.lt_of_lt_of_le (typed.sources.present declared) larger

/-- A compilation reports an unknown record type only when the tree names it. -/
theorem blames_of_compile
    {error : CompileError}
    (closed : schema.Closed)
    (listed : tree.Listed)
    (failed : tree.compile schema config owner = (.error error, held)) :
    error.Blames tree.Names := by
  cases walked : Walking.walkTree schema (tree.startWalk owner) with
  | error fault walk =>
      rw [compile_of_walk_error config walked] at failed
      cases failed
      exact (Walking.ends_walkTree closed).of_error walked
  | ok value walk =>
      cases finished : walk.finish schema config with
      | error fault =>
          rw [compile_of_finish_error walked finished] at failed
          cases failed
          exact blames_of_finish closed listed walked finished
      | ok compiled =>
          rw [compile_of_finish_ok walked finished] at failed
          cases failed

/-- Against a validated schema a tree compiles to a typed forest or not at all, and a record type
is reported as unknown only when the tree names it. -/
theorem compile_isTypedForest
    {declaration : SchemaDeclaration}
    (accepted : declaration.toSchema = .ok schema)
    (reachable : tree.Reachable) :
    (∀ compiled held, tree.compile schema config owner = (.ok compiled, held) ->
      compiled.IsTypedForest schema) ∧
    ∀ name held, tree.compile schema config owner = (.error (.unknownRecordType name), held) ->
      tree.Names name := by
  have closed := Schema.closed_of_toSchema accepted
  constructor
  · intro compiled held done
    obtain ⟨walk, graph, fetched, walked, followed, course⟩ := compile_course reachable done
    exact course.isTypedForest closed
  · intro name held failed
    exact blames_of_compile closed reachable.listed failed name rfl

/-- Crews with their members. -/
def crewDeclaration : SchemaDeclaration where
  recordTypes := ⟨[
    ("Crew", { identifier := "id", relations := ⟨[("members", ⟨"Sailor", .oneToMany, true⟩)]⟩ }),
    ("Sailor", { identifier := "id", attributes := ["name"] })]⟩

/-- The schema of the crews. -/
def crews : Schema :=
  ⟨⟨[("Crew", .ofFields "Crew" [.identifier "id",
      .relation "members" "Sailor" .oneToMany true]),
    ("Sailor", .ofFields "Sailor" [.identifier "id", .scalar "name"])]⟩⟩

/-- The names of the members of every crew, which are loaded with it. -/
def crewMembers : Tree :=
  (ofKind .query).performAll [
    .build (.root top "Crew"),
    .build (.access ⟨1⟩ "members"),
    .build (.access ⟨2⟩ "name"),
    .build (.select top ⟨3⟩),
    .build (.fetch ⟨1⟩ "members" .left .all)]

/-- The members of every crew, seen as ghosts. -/
def crewGhosts : Tree :=
  (ofKind .query).performAll [
    .build (.root top "Crew"),
    .build (.access ⟨1⟩ "members"),
    .build (.treat ⟨2⟩ "Ghost"),
    .build (.select top ⟨3⟩)]

/-- The members compile to a forest with two edges below its root, and the ghosts are unknown. -/
theorem crews_isTypedForest :
    crewDeclaration.toSchema = .ok crews ∧
    (∃ compiled held, crewMembers.compile crews {} ⟨8⟩ = (.ok compiled, held) ∧
      compiled.graph.children ⟨0⟩ = [⟨1⟩, ⟨2⟩] ∧ compiled.IsTypedForest crews) ∧
    ∃ held, crewGhosts.compile crews {} ⟨8⟩ = (.error (.unknownRecordType "Ghost"), held) ∧
      crewGhosts.Names "Ghost" := by
  have accepted : crewDeclaration.toSchema = .ok crews := by decide
  refine ⟨accepted, ?_, ?_⟩
  · have succeeds : ((crewMembers.compile crews {} ⟨8⟩).1.toOption.any fun compiled =>
        decide (compiled.graph.children ⟨0⟩ = [⟨1⟩, ⟨2⟩])) = true := by
      cbv
    obtain ⟨compiled, held, done, edges⟩ := exists_compiled succeeds
    exact ⟨compiled, held, done, of_decide_eq_true edges,
      (compile_isTypedForest accepted ⟨.query, _, rfl⟩).1 compiled held done⟩
  · have fails : (crewGhosts.compile crews {} ⟨8⟩).1 = .error (.unknownRecordType "Ghost") := by
      cbv
    have outcome : crewGhosts.compile crews {} ⟨8⟩ =
        (.error (.unknownRecordType "Ghost"), (crewGhosts.compile crews {} ⟨8⟩).2) := by
      rw [← fails]
    exact ⟨_, outcome, (compile_isTypedForest accepted ⟨.query, _, rfl⟩).2 "Ghost" _ outcome⟩

end Tree
end QueryGraph
