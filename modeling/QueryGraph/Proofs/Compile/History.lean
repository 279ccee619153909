import QueryGraph.Proofs.Compile.Steps
import QueryGraph.Proofs.Graph.Fetching
import QueryGraph.Proofs.Graph.Siblings
import QueryGraph.Proofs.Path.History
import QueryGraph.Proofs.Walk.Roots

/-!
# The history of a compilation

The graph of a result has a history: that of the walk, that of the paths, and that of the
fetches. The result itself tells what happened in it. A vertex was granted to the declared joins
and fetches whose vertex it is, and to the navigations that were compiled to it.
-/

namespace QueryGraph

theorem GraphState.Recounts.asks
    {state : GraphState}
    {tree : Tree}
    {history : List GraphEvent}
    {id : VertexId}
    {contributor : Contributor}
    (recounts : state.Recounts tree history) :
    JoinGraph.Asks history id contributor ↔
      ∃ source declared, contributor = .join source declared ∧
        tree.join? source = some declared ∧ state.declared.find? source = some id := by
  constructor
  · rintro ⟨parent, member⟩
    obtain ⟨source, declared, same, isJoin, found, -⟩ := recounts.declaredBy member
    exact ⟨source, declared, same, isJoin, found⟩
  · rintro ⟨source, declared, rfl, isJoin, found⟩
    exact recounts.granted isJoin found

theorem GraphState.TellsFetches.asks
    {start : JoinGraph}
    {state : GraphState}
    {tree : Tree}
    {history : List GraphEvent}
    {id : VertexId}
    {contributor : Contributor}
    (tells : state.TellsFetches start tree history) :
    JoinGraph.Asks history id contributor ↔
      ∃ fetch declared, contributor = .fetch fetch declared ∧
        tree.fetch? fetch = some declared ∧ state.declared.find? fetch = some id := by
  constructor
  · rintro ⟨parent, member⟩
    obtain ⟨fetch, declared, above, place, same, isFetch, found⟩ := tells.declaredBy member
    cases same
    exact ⟨fetch, declared, rfl, isFetch, found⟩
  · rintro ⟨fetch, declared, rfl, isFetch, found⟩
    exact tells.granted isFetch found

namespace CompiledGraph

/-- What a vertex of a result was made for: the declared joins and fetches whose vertex it is,
and the navigations that were compiled to it. -/
def Contributes
    (compiled : CompiledGraph)
    (tree : Tree)
    (id : VertexId) : Contributor -> Prop
  | .join source declared =>
      tree.join? source = some declared ∧ compiled.sources.find? source = some id
  | .navigation name => PathContext.Navigates tree compiled.paths name id
  | .fetch fetch declared =>
      tree.fetch? fetch = some declared ∧ compiled.fetches.find? fetch = some id

/-- A join that is declared in a statement of a result. -/
def Joins
    (compiled : CompiledGraph)
    (tree : Tree)
    (source : NodeId)
    (declared : JoinDeclaration) : Prop :=
  ∃ body, tree.node? source = some (.source body) ∧ body.join? = some declared ∧
    body.statement ∈ compiled.statements

theorem Joins.join?
    {compiled : CompiledGraph}
    {tree : Tree}
    {source : NodeId}
    {declared : JoinDeclaration}
    (joins : compiled.Joins tree source declared) :
    tree.join? source = some declared := by
  obtain ⟨body, found, isJoin, -⟩ := joins
  unfold Tree.join?
  rw [found]
  exact isJoin

/-- The result of a compilation tells the history of its graph. -/
structure Tells
    (compiled : CompiledGraph)
    (tree : Tree)
    (history : List GraphEvent) : Prop where
  chronicle : JoinGraph.Chronicle history compiled.graph
  asks : ∀ {id contributor}, JoinGraph.Asks history id contributor ↔
    compiled.Contributes tree id contributor
  above : ∀ {source declared parent id},
    GraphEvent.granted (.join source declared) parent id ∈ history ->
      compiled.sources.find? declared.parent = some parent
  references : ∀ {id}, GraphEvent.reference id ∈ history ↔
    ∃ identity path, (identity, path) ∈ compiled.paths ∧ id ∈ path.vertices

end CompiledGraph

/-- The course of a compilation. A walk declares the sources, the paths refer to vertices and
navigate to more of them, and the declared fetches are given theirs. -/
structure Tree.Course
    (tree : Tree)
    (schema : Schema)
    (config : CompilerConfig)
    (owner : Owner)
    (compiled : CompiledGraph)
    (walk : Walk)
    (graph : JoinGraph)
    (fetched : GraphState)
    (walked followed : List GraphEvent) : Prop where
  walkDone : Walking.walkTree schema (tree.startWalk owner) = .ok () walk
  declares : walk.Declares schema tree
  recounts : walk.sources.Recounts tree walked
  rooted : walk.Rooted tree
  paths : (walk.context schema config).compilePaths tree walk.allocator.identities
    walk.sources.graph = .ok compiled.paths graph
  steps : walk.sources.graph.Steps followed graph
  rootless : ∀ {id}, GraphEvent.root id ∉ followed
  references : ∀ {id}, GraphEvent.reference id ∈ followed ↔
    ∃ identity path, (identity, path) ∈ compiled.paths ∧ id ∈ path.vertices
  navigations : ∀ {id contributor}, JoinGraph.Asks followed id contributor ↔
    ∃ name, contributor = .navigation name ∧ PathContext.Navigates tree compiled.paths name id
  fetches : GraphState.Fetches schema tree { graph := graph } fetched
  result : compiled = walk.result config compiled.paths fetched

namespace Tree.Course

variable {tree : Tree} {schema : Schema} {config : CompilerConfig} {owner : Owner}
  {compiled : CompiledGraph} {walk : Walk} {graph : JoinGraph} {fetched : GraphState}
  {walked followed : List GraphEvent}
  (course : tree.Course schema config owner compiled walk graph fetched walked followed)

include course

theorem forest_walked : walk.sources.graph.Forest :=
  course.recounts.steps.forest JoinGraph.forest_empty

theorem forest_followed : graph.Forest := course.steps.forest course.forest_walked

/-- What happens in the course of a compilation is told by its result. -/
theorem tells : ∃ history, compiled.Tells tree history := by
  obtain ⟨loaded, tells⟩ := course.fetches.tells
  have sources : compiled.sources = walk.sources.declared := by
    rw [course.result]
    rfl
  have fetches : compiled.fetches = fetched.declared := by
    rw [course.result]
    rfl
  refine ⟨loaded ++ (followed ++ walked), ?_, ?_, ?_, ?_⟩
  · rw [course.result]
    exact ((course.recounts.steps.trans course.steps).trans tells.steps).chronicle.assignLabels _ _
  · intro id contributor
    rw [JoinGraph.asks_append, JoinGraph.asks_append, tells.asks, course.navigations,
      course.recounts.asks]
    cases contributor <;> simp [CompiledGraph.Contributes, sources, fetches]
  · intro source declared parent id member
    rw [sources]
    rcases List.mem_append.mp member with isLoaded | earlier
    · obtain ⟨_, _, _, _, contrary, -⟩ := tells.declaredBy isLoaded
      cases contrary
    rcases List.mem_append.mp earlier with isFollowed | isWalked
    · obtain ⟨_, contrary, -⟩ := course.navigations.mp ⟨parent, isFollowed⟩
      cases contrary
    · obtain ⟨_, _, same, -, -, found⟩ := course.recounts.declaredBy isWalked
      cases same
      exact found
  · intro id
    have unloaded : GraphEvent.reference id ∉ loaded := by
      intro member
      obtain ⟨_, _, _, _, contrary, -⟩ := tells.declaredBy member
      cases contrary
    rw [List.mem_append, List.mem_append, course.references]
    simp [unloaded, course.recounts.unreferenced]

/-! ## The graph of a result -/

theorem graph_eq :
    compiled.graph = fetched.graph.assignLabels config (walk.statementRoots.flatMap Prod.snd) := by
  rw [course.result]
  rfl

theorem edge?_eq (id : VertexId) : compiled.graph.edge? id = fetched.graph.edge? id := by
  rw [course.graph_eq, JoinGraph.edge?_assignLabels]

theorem typeOf_eq (id : VertexId) :
    Graphing.typeOf compiled.graph id = Graphing.typeOf fetched.graph id := by
  unfold Graphing.typeOf
  rw [course.graph_eq, JoinGraph.map_vertex?_assignLabels _ _ _ _ fun _ _ _ => rfl]

theorem ordered_followed : graph.Ordered := by
  have walkedOrdered := course.recounts.steps.ordered JoinGraph.forest_empty JoinGraph.ordered_empty
  exact course.steps.ordered course.forest_walked walkedOrdered

theorem ordered_fetched : fetched.graph.Ordered := by
  obtain ⟨loaded, tells⟩ := course.fetches.tells
  exact tells.steps.ordered course.forest_followed course.ordered_followed

theorem forest_compiled : compiled.graph.Forest := by
  obtain ⟨history, tells⟩ := course.tells
  exact tells.chronicle.forest

theorem ordered_compiled : compiled.graph.Ordered := by
  refine course.ordered_fetched.of_children fun id => ?_
  rw [course.graph_eq, JoinGraph.children_assignLabels]

end Tree.Course

namespace Tree

variable {tree held : Tree} {schema : Schema} {config : CompilerConfig} {owner : Owner}
  {compiled : CompiledGraph}

/-- Every successful compilation takes its course. -/
theorem compile_course
    (reachable : tree.Reachable)
    (done : tree.compile schema config owner = (.ok compiled, held)) :
    ∃ walk graph fetched walked followed,
      tree.Course schema config owner compiled walk graph fetched walked followed := by
  obtain ⟨walk, walkDone, finished, -⟩ := compile_eq_ok.mp done
  have declares := Walking.declares_of_walkTree reachable.placed walkDone
  obtain ⟨walked, recounts⟩ := Walking.recounts_of_walkTree reachable.listed walkDone
  obtain ⟨paths, graph, fetched, pathsDone, fetchesDone, rfl⟩ := Walk.finish_eq_ok.mp finished
  have pathsHere := PathContext.compilePaths_of_evolves
    (Tree.Matches.of_nodes declares.nodes.symm []).evolves pathsDone
  have walkForest := recounts.steps.forest JoinGraph.forest_empty
  obtain ⟨followed, steps, rootless, references, navigations⟩ :=
    PathContext.compilePaths_history walkForest recounts.present pathsHere
  have present : ∀ entry ∈ walk.sources.declared.entries, entry.2.index < graph.size := by
    intro entry member
    have found := recounts.faithful _ _ member
    exact Nat.lt_of_lt_of_le (recounts.present found) (steps.size_le walkForest)
  have fetches := Graphing.fetches_mergeAllFetches (reachable.listed.of_nodes declares.nodes)
    recounts.nodup present fetchesDone
  exact ⟨walk, graph, fetched, walked, followed, walkDone, declares, recounts,
    Walking.rooted_of_walkTree reachable.listed walkDone, pathsHere, steps, rootless, references,
    navigations, fetches.of_nodes declares.nodes, rfl⟩

/-- The graph of every result has a history that the result tells. -/
theorem compile_tells
    (reachable : tree.Reachable)
    (done : tree.compile schema config owner = (.ok compiled, held)) :
    ∃ history, compiled.Tells tree history := by
  obtain ⟨walk, graph, fetched, walked, followed, course⟩ := compile_course reachable done
  exact course.tells

/-- The sources of a result are those of a sound state with a history that recounts them, and
they include every source of a compiled statement. -/
theorem compile_recounts
    (reachable : tree.Reachable)
    (done : tree.compile schema config owner = (.ok compiled, held)) :
    ∃ state history, GraphState.Recounts state tree history ∧ state.Sound schema tree ∧
      compiled.sources = state.declared ∧
      ∀ {id body}, tree.node? id = some (.source body) ->
        body.statement ∈ compiled.statements -> ∃ vertex, compiled.sources.find? id = some vertex := by
  obtain ⟨walk, walked, finished, -⟩ := compile_eq_ok.mp done
  have declares := Walking.declares_of_walkTree reachable.placed walked
  obtain ⟨history, recounts⟩ := Walking.recounts_of_walkTree reachable.listed walked
  obtain ⟨paths, graph, fetched, -, -, rfl⟩ := Walk.finish_eq_ok.mp finished
  exact ⟨walk.sources, history, recounts, declares.sound, rfl, fun found entered =>
    DeclarationMap.find?_of_mem_keys (declares.complete found entered)⟩

end Tree
end QueryGraph
