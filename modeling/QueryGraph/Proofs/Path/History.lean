import QueryGraph.Proofs.Graph.History
import QueryGraph.Proofs.Path.Type

/-!
# The history of compiling paths

Compiling a path refers to the vertices that it leads through, and asks for those that it
navigates to. Nothing else happens to the graph, whether the path was shortened or not.
-/

namespace QueryGraph

namespace Route

/-- The relations on a route that became joins, each with its vertex, given the vertices of the
links. Every source and every field on a route has a link; a treat shares the link of its
target. -/
def navigations : Route -> List (Option VertexId) -> List (String × VertexId)
  | .field parent name, edge :: edges =>
      (edge.map fun id => (name, id)).toList ++ parent.navigations edges
  | .join parent _ _ _, _ :: edges => parent.navigations edges
  | .treat target _, edges => target.navigations edges
  | _, _ => []

/-- The events of compiling a path along a route. -/
structure Accounts
    (route : Route)
    (path : CompiledPath)
    (events : List GraphEvent) : Prop where
  rootless : ∀ {id}, GraphEvent.root id ∉ events
  references : ∀ {id}, GraphEvent.reference id ∈ events ↔ id ∈ path.vertices
  asks : ∀ {id contributor}, JoinGraph.Asks events id contributor ↔
    ∃ name, contributor = .navigation name ∧ (name, id) ∈ route.navigations path.edges

namespace Accounts

variable {route : Route} {path : CompiledPath} {events : List GraphEvent}

theorem origin
    (source : NodeId)
    (id : VertexId) :
    (Route.origin source).Accounts (.toVertex id none) [.reference id] where
  rootless := by simp
  references := by simp
  asks := by simp [JoinGraph.Asks, navigations]

/-- A source for which a field of the one above stands. -/
theorem joinField
    (accounts : route.Accounts path events)
    (source : NodeId)
    (field : String)
    (direction : JoinDirection) :
    (Route.join route source field direction).Accounts (.toField field path) events :=
  ⟨accounts.rootless, accounts.references, accounts.asks⟩

theorem joinVertex
    (accounts : route.Accounts path events)
    (source : NodeId)
    (field : String)
    (direction : JoinDirection)
    (id : VertexId) :
    (Route.join route source field direction).Accounts (.toVertex id (some path))
      (events ++ [.reference id]) where
  rootless := by simp [accounts.rootless]
  references := by simp [accounts.references, or_comm]
  asks := by
    intro other contributor
    rw [JoinGraph.asks_append, accounts.asks]
    simp [JoinGraph.Asks, navigations]

theorem field
    (accounts : route.Accounts path events)
    (name : String) :
    (Route.field route name).Accounts (.toField name path) events :=
  ⟨accounts.rootless, accounts.references, by
    intro id contributor
    simpa [navigations] using accounts.asks⟩

/-- A relation that is navigated has a vertex, which is referred to as well. -/
theorem navigate
    (accounts : route.Accounts path events)
    (name : String)
    (parent id : VertexId) :
    (Route.field route name).Accounts (.toVertex id (some path))
      (.reference id :: .granted (.navigation name) parent id :: events) where
  rootless := by simp [accounts.rootless]
  references := by simp [accounts.references]
  asks := by
    intro other contributor
    have listed : ∀ further, (further, other) ∈
        (Route.field route name).navigations (CompiledPath.toVertex id (some path)).edges ↔
          (further = name ∧ other = id) ∨ (further, other) ∈ route.navigations path.edges := by
      simp [navigations]
    rw [JoinGraph.asks_cons_reference, JoinGraph.asks_cons_granted, accounts.asks]
    simp only [listed]
    constructor
    · rintro (⟨rfl, rfl⟩ | ⟨further, rfl, member⟩)
      · exact ⟨name, rfl, Or.inl ⟨rfl, rfl⟩⟩
      · exact ⟨further, rfl, Or.inr member⟩
    · rintro ⟨further, rfl, ⟨rfl, rfl⟩ | member⟩
      · exact Or.inl ⟨rfl, rfl⟩
      · exact Or.inr ⟨further, rfl, member⟩

theorem treat
    (accounts : route.Accounts path events)
    (asType : String) :
    (Route.treat route asType).Accounts (path.treat asType) events :=
  ⟨accounts.rootless, accounts.references, accounts.asks⟩

end Accounts
end Route

namespace PathContext

variable {context : PathContext} {before after : JoinGraph}

/-- Every declared source has a vertex in a graph. -/
def Present
    (context : PathContext)
    (graph : JoinGraph) : Prop :=
  ∀ {source id}, context.sources.find? source = some id -> id.index < graph.size

theorem Present.of_steps
    {events : List GraphEvent}
    (present : context.Present before)
    (forest : before.Forest)
    (steps : before.Steps events after) :
    context.Present after :=
  fun found => Nat.lt_of_lt_of_le (present found) (steps.size_le forest)

/-- A vertex is referred to. -/
theorem steps_setUsed
    {id : VertexId}
    (present : id.index < before.size) :
    before.Steps [.reference id] (before.setUsed id) :=
  .single (.reference present)

/-- A relation is navigated by asking for a vertex and referring to it. -/
theorem implicitJoin_steps
    {owner id : VertexId}
    {name : String}
    (forest : before.Forest)
    (older : owner.index < before.size)
    (done : context.implicitJoin owner name before = .ok id after) :
    before.Steps [.reference id, .granted (.navigation name) owner id] (after.setUsed id) := by
  obtain ⟨target, resolution, -, resolved, rfl⟩ := implicitJoin_eq_ok.mp done
  have granted : before.Step (.granted (.navigation name) owner resolution.id) after :=
    .request older rfl resolved
  exact .next (.single granted) (.reference (granted.effect forest).present)

mutual

/-- Compiling a route leaves the events of its path. -/
theorem compileRoute_accounts
    {leaf selected : Bool}
    {path : CompiledPath}
    {before after : JoinGraph}
    (forest : before.Forest)
    (present : context.Present before) :
    (route : Route) -> context.compileRoute route leaf selected before = .ok path after ->
      ∃ events, before.Steps events after ∧ route.Accounts path events
  | .origin source, done => by
      obtain ⟨id, declared, rfl, rfl⟩ := compileRoute_origin_eq_ok.mp done
      exact ⟨_, steps_setUsed (present declared), .origin source id⟩
  | .join parent source field direction, done => by
      obtain ⟨stands, -, ⟨-, above, aboveDone, rfl⟩ | ⟨-, id, above, declared, aboveDone, rfl⟩⟩ :=
        compileRoute_join_eq_ok.mp done
      · obtain ⟨events, steps, accounts⟩ := compileRoute_accounts forest present parent aboveDone
        exact ⟨events, steps, accounts.joinField source field direction⟩
      · have used := steps_setUsed (present declared)
        obtain ⟨events, steps, accounts⟩ := compileRoute_accounts (used.forest forest)
          (present.of_steps forest used) parent aboveDone
        exact ⟨_, used.trans steps, accounts.joinVertex source field direction id⟩
  | .field parent name, done => by
      obtain ⟨parentType, field, collapsed, between, -, -, attempt, rest⟩ :=
        compileRoute_field_eq_ok.mp done
      have attempted : (collapsed = none ∧ between = before) ∨
          ∃ found events, collapsed = some found ∧ before.Steps events between ∧
            (Route.field parent name).Accounts found events := by
        unfold attemptField at attempt
        split at attempt
        · exact collapseIdentifier_accounts forest present parent attempt
        · cases attempt
          exact Or.inl ⟨rfl, rfl⟩
      rcases rest with ⟨rfl, rfl⟩ | ⟨rfl, navigated⟩
      · rcases attempted with ⟨contrary, -⟩ | ⟨found, events, same, steps, accounts⟩
        · cases contrary
        · cases same
          exact ⟨events, steps, accounts⟩
      rcases attempted with ⟨-, rfl⟩ | ⟨found, events, contrary, -⟩
      · have result := navigateField_eq_ok.mp navigated
        split at result
        · obtain ⟨above, middle, owner, id, grown, aboveDone, isOwner, joinDone, rfl, rfl⟩ := result
          obtain ⟨events, steps, accounts⟩ :=
            compileRoute_accounts forest present parent aboveDone
          have older : owner.index < middle.size :=
            steps.present forest
              (accounts.references.mpr (CompiledPath.mem_vertices_of_leaf isOwner))
          have joined := implicitJoin_steps (steps.forest forest) older joinDone
          exact ⟨_, steps.trans joined, accounts.navigate name owner id⟩
        · obtain ⟨-, above, aboveDone, rfl⟩ := result
          obtain ⟨events, steps, accounts⟩ :=
            compileRoute_accounts forest present parent aboveDone
          exact ⟨events, steps, accounts.field name⟩
      · cases contrary
  | .treat target asType, done => by
      obtain ⟨declared, inner, -, innerDone, rfl⟩ := compileRoute_treat_eq_ok.mp done
      obtain ⟨events, steps, accounts⟩ := compileRoute_accounts forest present target innerDone
      exact ⟨events, steps, accounts.treat asType⟩

/-- A collapsed identifier leaves the events of the path that stands for it. -/
theorem collapseIdentifier_accounts
    {identifier : String}
    {collapsed : Option CompiledPath}
    {before after : JoinGraph}
    (forest : before.Forest)
    (present : context.Present before) :
    (route : Route) -> context.collapseIdentifier route identifier before = .ok collapsed after ->
      (collapsed = none ∧ after = before) ∨
        ∃ found events, collapsed = some found ∧ before.Steps events after ∧
          (Route.field route identifier).Accounts found events
  | .origin source, done => by
      cases done
      exact Or.inl ⟨rfl, rfl⟩
  | .join owner source field direction, done => by
      obtain ⟨stands, -, ⟨-, inner, innerDone, rfl⟩ | ⟨-, rfl, rfl⟩⟩ :=
        collapseIdentifier_join_eq_ok.mp done
      · obtain ⟨events, steps, accounts⟩ := compileRoute_accounts forest present owner innerDone
        exact Or.inr ⟨_, events, rfl, steps,
          (accounts.joinField source field direction).field identifier⟩
      · exact Or.inl ⟨rfl, rfl⟩
  | .field owner name, done => by
      obtain ⟨ownerType, relation, -, -, ⟨-, inner, innerDone, rfl⟩ | ⟨-, rfl, rfl⟩⟩ :=
        collapseIdentifier_field_eq_ok.mp done
      · obtain ⟨events, steps, accounts⟩ := compileRoute_accounts forest present owner innerDone
        exact Or.inr ⟨_, events, rfl, steps, (accounts.field name).field identifier⟩
      · exact Or.inl ⟨rfl, rfl⟩
  | .treat target asType, done => by
      cases done
      exact Or.inl ⟨rfl, rfl⟩

end

/-- A compiled path navigates over a relation to a vertex. -/
def Navigates
    (tree : Tree)
    (paths : List (PathIdentity × CompiledPath))
    (name : String)
    (id : VertexId) : Prop :=
  ∃ identity path route, (identity, path) ∈ paths ∧ tree.route identity.node = .ok route ∧
    (name, id) ∈ route.navigations path.edges

theorem navigates_cons
    {tree : Tree}
    {identity : PathIdentity}
    {path : CompiledPath}
    {paths : List (PathIdentity × CompiledPath)}
    {route : Route}
    {name : String}
    {id : VertexId}
    (found : tree.route identity.node = .ok route) :
    Navigates tree ((identity, path) :: paths) name id ↔
      (name, id) ∈ route.navigations path.edges ∨ Navigates tree paths name id := by
  constructor
  · rintro ⟨other, otherPath, otherRoute, member, otherFound, navigates⟩
    rcases List.mem_cons.mp member with same | further
    · cases same
      rw [found] at otherFound
      cases otherFound
      exact Or.inl navigates
    · exact Or.inr ⟨other, otherPath, otherRoute, further, otherFound, navigates⟩
  · rintro (navigates | ⟨other, otherPath, otherRoute, member, otherFound, navigates⟩)
    · exact ⟨identity, path, route, List.mem_cons_self, found, navigates⟩
    · exact ⟨other, otherPath, otherRoute, List.mem_cons_of_mem _ member, otherFound, navigates⟩

/-- Compiling paths leaves the events of each of them. -/
theorem compilePaths_history
    {tree : Tree}
    {identities : List PathIdentity}
    {paths : List (PathIdentity × CompiledPath)}
    (forest : before.Forest)
    (present : context.Present before)
    (done : context.compilePaths tree identities before = .ok paths after) :
    ∃ events, before.Steps events after ∧ (∀ {id}, GraphEvent.root id ∉ events) ∧
      (∀ {id}, GraphEvent.reference id ∈ events ↔
        ∃ identity path, (identity, path) ∈ paths ∧ id ∈ path.vertices) ∧
      ∀ {id contributor}, JoinGraph.Asks events id contributor ↔
        ∃ name, contributor = .navigation name ∧ Navigates tree paths name id := by
  induction identities generalizing before paths with
  | nil =>
      cases done
      exact ⟨[], .none, by simp, by simp, by simp [JoinGraph.Asks, Navigates]⟩
  | cons first identities inductionHypothesis =>
      obtain ⟨path, between, rest, pathDone, restDone, rfl⟩ := compilePaths_cons_eq_ok.mp done
      obtain ⟨route, routeFound, routeDone⟩ := compilePath_eq_ok.mp pathDone
      obtain ⟨events, steps, accounts⟩ := compileRoute_accounts forest present route routeDone
      obtain ⟨later, laterSteps, rootless, references, asks⟩ := inductionHypothesis
        (steps.forest forest) (present.of_steps forest steps) restDone
      refine ⟨later ++ events, steps.trans laterSteps, ?_, ?_, ?_⟩
      · simp [rootless, accounts.rootless]
      · intro id
        rw [List.mem_append, references, accounts.references]
        constructor
        · rintro (⟨identity, other, member, through⟩ | through)
          · exact ⟨identity, other, List.mem_cons_of_mem _ member, through⟩
          · exact ⟨first, path, List.mem_cons_self, through⟩
        · rintro ⟨identity, other, member, through⟩
          rcases List.mem_cons.mp member with same | further
          · cases same
            exact Or.inr through
          · exact Or.inl ⟨identity, other, further, through⟩
      · intro id contributor
        rw [JoinGraph.asks_append, asks, accounts.asks]
        simp only [navigates_cons routeFound, and_or_left, exists_or, or_comm]

end PathContext
end QueryGraph
