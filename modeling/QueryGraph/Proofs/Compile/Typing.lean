import Mathlib
import QueryGraph.Proofs.Compile.Steps
import QueryGraph.Proofs.Path.Typing
import QueryGraph.Proofs.Walk.Scope

/-!
# The types of compiled paths

The fields of a path are looked up in the types that its treats name, but a join hangs off a
vertex, which has the type without the treats. A path therefore compiles, with joins of its
types, exactly where the two agree on every relation that becomes a join.
-/

namespace QueryGraph

/-- The record type of the vertex that a walk declared for a source. -/
def Walk.sourceType? (walk : Walk) (source : NodeId) : Option String :=
  (walk.sources.declared.find? source).bind fun vertex =>
    (walk.sources.graph.vertex? vertex).map Vertex.recordType

namespace Walking

variable
  {tree : Tree}
  {schema : Schema}
  {owner : Owner}
  {walk : Walk}

/-- A recorded path has a way to its origin, and all sources on it were declared. -/
theorem declared_of_walkTree
    {identity : PathIdentity}
    (placed : tree.Placed)
    (walked : walkTree schema (tree.startWalk owner) = .ok () walk)
    (recorded : identity ∈ walk.allocator.identities) :
    ∃ route, Route.Leads tree identity.node route ∧
      ∀ source ∈ route.sources, ∃ vertex, walk.sources.declared.find? source = some vertex := by
  have declares := declares_of_walkTree placed walked
  obtain ⟨chain, found, -, entered⟩ := inScope_of_walkTree walked identity recorded
  obtain ⟨route, leads, -, -, within⟩ := placed.leads_of_chain found
  refine ⟨route, leads, fun source member => ?_⟩
  obtain ⟨body, present, sameStatement⟩ := within source member
  rw [← sameStatement] at entered
  exact DeclarationMap.find?_of_mem_keys (declares.complete present entered)

/-- The paths before an occurrence leave the types of the declared sources as they were. -/
theorem ready_of_compilePaths
    {config : CompilerConfig}
    {earlier : List PathIdentity}
    {paths : List (PathIdentity × CompiledPath)}
    {graph : JoinGraph}
    (placed : tree.Placed)
    (walked : walkTree schema (tree.startWalk owner) = .ok () walk)
    (recorded : earlier ⊆ walk.allocator.identities)
    (before : (walk.context schema config).compilePaths walk.tree earlier walk.sources.graph =
      .ok paths graph) :
    (walk.context schema config).Ready tree walk.sourceType? graph := by
  have declares := declares_of_walkTree placed walked
  have evolvesBack : walk.tree.Evolves tree :=
    (Tree.Matches.of_nodes declares.nodes.symm []).evolves
  have leads : ∀ identity ∈ earlier, ∃ route, Route.Leads tree identity.node route ∧
      tree.route identity.node = .ok route := by
    intro identity member
    obtain ⟨chain, found, -⟩ := inScope_of_walkTree walked identity (recorded member)
    exact placed.route_of_pathChain found
  have sound : (walk.context schema config).Sound tree walk.sources.graph := declares.sound
  obtain ⟨grows, soundAfter, -⟩ := PathContext.compilePaths_stays sound leads
    (PathContext.compilePaths_of_evolves evolvesBack before)
  exact ⟨soundAfter, sound.sourceType?_eq grows⟩

end Walking

namespace Tree

/-- An occurrence of a navigable path compiles, with every relation that becomes a join leading
to a vertex of the type of the path there, exactly where the treats do not matter for those
relations. Without treats that is always so. -/
theorem compilePath_typed_iff
    {tree : Tree}
    {schema : Schema}
    {config : CompilerConfig}
    {owner : Owner}
    {walk : Walk}
    {earlier later : List PathIdentity}
    {identity : PathIdentity}
    {paths : List (PathIdentity × CompiledPath)}
    {graph : JoinGraph}
    (reachable : tree.Reachable)
    (walked : Walking.walkTree schema (tree.startWalk owner) = .ok () walk)
    (occurs : walk.allocator.identities = earlier ++ identity :: later)
    (before : (walk.context schema config).compilePaths walk.tree earlier walk.sources.graph =
      .ok paths graph) :
    ∃ route, tree.route identity.node = .ok route ∧
      (route.Navigable schema walk.sourceType? true ->
        ((∃ path after,
          (walk.context schema config).compilePath walk.tree identity graph = .ok path after ∧
            route.EdgesTyped schema walk.sourceType? after path.edges) ↔
          route.TreatsAgree schema walk.sourceType? identity.isDirectlySelected)) ∧
      (route.untreated = route ->
        route.TreatsAgree schema walk.sourceType? identity.isDirectlySelected) := by
  have placed := reachable.placed
  have earlierRecorded : earlier ⊆ walk.allocator.identities := by
    rw [occurs]
    exact List.subset_append_left _ _
  have recorded : identity ∈ walk.allocator.identities := by
    rw [occurs]
    exact List.mem_append_right _ List.mem_cons_self
  have ready := Walking.ready_of_compilePaths placed walked earlierRecorded before
  obtain ⟨route, leads, declared⟩ := Walking.declared_of_walkTree placed walked recorded
  have evolves : tree.Evolves walk.tree :=
    (Matches.of_nodes (Walking.declares_of_walkTree placed walked).nodes []).evolves
  have routeFound := leads.route placed
  have routeHere := evolves.route routeFound
  refine ⟨route, routeFound, fun navigable => ?_, Route.treatsAgree_of_untreated _⟩
  constructor
  · rintro ⟨path, after, done, typed⟩
    obtain ⟨again, againFound, routeDone⟩ := PathContext.compilePath_eq_ok.mp done
    rw [routeHere] at againFound
    cases againFound
    exact (PathContext.typed_of_compileRoute ready leads navigable routeDone).mp typed
  · intro agrees
    obtain ⟨path, after, routeDone⟩ :=
      PathContext.compileRoute_of_treatsAgree ready leads declared navigable agrees
    have typed := (PathContext.typed_of_compileRoute ready leads navigable routeDone).mpr agrees
    exact ⟨path, after, PathContext.compilePath_eq_ok.mpr ⟨route, routeHere, routeDone⟩, typed⟩

/-- A relation to a team. -/
def teamField : Field := .relation "team" "Team" .manyToOne true

/-- Employees with given fields, managers with a team, and teams. -/
def staff (employee : List Field) : Schema :=
  ⟨⟨[("Employee", .ofFields "Employee" employee),
    ("Manager", .ofFields "Manager" [teamField]),
    ("Team", .ofFields "Team" [.scalar "title"])]⟩⟩

/-- The title of the team of an employee who is treated as a manager. -/
def teamTitle : Tree :=
  (ofKind .query).performAll [
    .build (.root top "Employee"),
    .build (.treat ⟨1⟩ "Manager"),
    .build (.access ⟨2⟩ "team"),
    .build (.access ⟨3⟩ "title"),
    .build (.select top ⟨4⟩)]

/-- The only occurrence of a path in `teamTitle`. -/
def teamTitleSelected : PathIdentity := ⟨⟨4⟩, [.clause .selection, .statement top .query], 0⟩

/-- Where employees have a team as well, the treat does not matter. -/
theorem teamTitle_compilePath_typed :
    ∃ walk route path after,
      Walking.walkTree (staff [teamField]) (teamTitle.startWalk ⟨8⟩) = .ok () walk ∧
        walk.allocator.identities = [teamTitleSelected] ∧
        teamTitle.route teamTitleSelected.node = .ok route ∧
        route.Navigable (staff [teamField]) walk.sourceType? true ∧
        (walk.context (staff [teamField]) {}).compilePath walk.tree teamTitleSelected
          walk.sources.graph = .ok path after ∧
        route.EdgesTyped (staff [teamField]) walk.sourceType? after path.edges := by
  have suitable : (match Walking.walkTree (staff [teamField]) (teamTitle.startWalk ⟨8⟩),
        teamTitle.route teamTitleSelected.node with
      | .ok _ walk, .ok route =>
          decide (walk.allocator.identities = [teamTitleSelected] ∧
            route.Navigable (staff [teamField]) walk.sourceType? true ∧
            route.TreatsAgree (staff [teamField]) walk.sourceType?
              teamTitleSelected.isDirectlySelected)
      | _, _ => false) = true := by
    cbv
  split at suitable
  · next walk route walked found =>
      obtain ⟨identities, navigable, agrees⟩ := of_decide_eq_true suitable
      have reachable : teamTitle.Reachable := ⟨.query, _, rfl⟩
      have nothing : (walk.context (staff [teamField]) {}).compilePaths walk.tree []
          walk.sources.graph = .ok [] walk.sources.graph := rfl
      obtain ⟨again, againFound, typed, -⟩ :=
        compilePath_typed_iff reachable walked identities nothing
      rw [found] at againFound
      cases againFound
      obtain ⟨path, after, done, edges⟩ := (typed navigable).mpr agrees
      exact ⟨walk, route, path, after, walked, identities, found, navigable, done, edges⟩
  · cases suitable

/-- Where only managers have a team, the path is navigable by its types and still does not
compile: the join to the team is looked up in the type without the treat. -/
theorem teamTitle_join_ignores_treat :
    ∃ walk route after,
      Walking.walkTree (staff []) (teamTitle.startWalk ⟨8⟩) = .ok () walk ∧
        walk.allocator.identities = [teamTitleSelected] ∧
        teamTitle.route teamTitleSelected.node = .ok route ∧
        route.Navigable (staff []) walk.sourceType? true ∧
        (walk.context (staff []) {}).compilePath walk.tree teamTitleSelected
          walk.sources.graph = .error (.unknownField "Employee" "team") after := by
  have refused : (match Walking.walkTree (staff []) (teamTitle.startWalk ⟨8⟩),
        teamTitle.route teamTitleSelected.node with
      | .ok _ walk, .ok route =>
          decide (walk.allocator.identities = [teamTitleSelected] ∧
            route.Navigable (staff []) walk.sourceType? true) &&
            match (walk.context (staff []) {}).compilePath walk.tree teamTitleSelected
                walk.sources.graph with
            | .error (.unknownField "Employee" "team") _ => true
            | _ => false
      | _, _ => false) = true := by
    cbv
  split at refused
  · next walk route walked found =>
      obtain ⟨suitable, fails⟩ := Bool.and_eq_true_iff.mp refused
      obtain ⟨identities, navigable⟩ := of_decide_eq_true suitable
      split at fails
      · next after failed =>
          exact ⟨walk, route, after, walked, identities, found, navigable, failed⟩
      · cases fails
  · cases refused

end Tree
end QueryGraph
