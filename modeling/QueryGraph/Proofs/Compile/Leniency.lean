import Mathlib
import QueryGraph.Proofs.Compile.Steps
import QueryGraph.Proofs.Graph.Prunes
import QueryGraph.Proofs.Path.Leniency
import QueryGraph.Proofs.Walk.Scope

/-!
# Compiling with and without trust in the schema

Whether a tree compiles does not depend on whether the schema is trusted, and neither does what
is declared, joined or fetched. Where a key column stands for a join only because the schema is
trusted, the vertex of the join may remain unused.
-/

namespace QueryGraph

open Operation

/-- A result that differs from another one in its labels and in that it may use fewer vertices. Its
paths occur at the same places, but may be compiled to other links. -/
structure CompiledGraph.Prunes (pruned full : CompiledGraph) : Prop where
  guard : pruned.guard = full.guard
  graph : pruned.graph.Prunes full.graph
  statementRoots : pruned.statementRoots = full.statementRoots
  sources : pruned.sources = full.sources
  fetches : pruned.fetches = full.fetches
  identities : pruned.identities = full.identities
  parameters : pruned.parameters = full.parameters
  literals : pruned.literals = full.literals

namespace Walk

variable {walk : Walk} {tree : Tree} {schema : Schema} {config : CompilerConfig}

/-- Every source on the way of a recorded path has a vertex. -/
theorem Declares.find?_of_route
    {identity : PathIdentity}
    {chain : PathChain}
    {route : Route}
    {source : NodeId}
    (declares : walk.Declares schema tree)
    (placed : tree.Placed)
    (read : tree.pathChain identity.node = .ok chain)
    (entered : chain.source.statement ∈ walk.entered)
    (found : walk.tree.route identity.node = .ok route)
    (onRoute : source ∈ route.sources) :
    ∃ vertex, walk.sources.declared.find? source = some vertex := by
  obtain ⟨way, leads, -, -, within⟩ := placed.leads_of_chain read
  have foundHere := (Tree.Matches.of_nodes declares.nodes.symm []).evolves.route found
  rw [leads.route placed] at foundHere
  cases foundHere
  obtain ⟨body, sourceFound, sameStatement⟩ := within source onRoute
  rw [← sameStatement] at entered
  exact DeclarationMap.find?_of_mem_keys (declares.complete sourceFound entered)

/-- What follows a walk ends alike whether or not the schema is trusted. -/
theorem finish_prunes
    (declares : walk.Declares schema tree)
    (placed : tree.Placed)
    (inScope : ∀ identity ∈ walk.allocator.identities, ∃ chain,
      tree.pathChain identity.node = .ok chain ∧
        chain.source.statement ∈ identity.statements ∧ chain.source.statement ∈ walk.entered) :
    (∃ strict lenient,
      walk.finish schema { config with strictSchema := true } = .ok strict ∧
        walk.finish schema { config with strictSchema := false } = .ok lenient ∧
        strict.Prunes lenient) ∨
    ∃ error,
      walk.finish schema { config with strictSchema := true } = .error error ∧
        walk.finish schema { config with strictSchema := false } = .error error := by
  have declared : ∀ identity ∈ walk.allocator.identities, ∀ route,
      walk.tree.route identity.node = .ok route -> ∀ source ∈ route.sources,
        ∃ vertex, walk.sources.declared.find? source = some vertex := by
    intro identity member route found source onRoute
    obtain ⟨chain, read, -, entered⟩ := inScope identity member
    exact declares.find?_of_route placed read entered found onRoute
  have pathsAlike : Alike (List.Forall₂ fun strict lenient => strict.1 = lenient.1) JoinGraph.Prunes
      (((walk.context schema config).trusting true).compilePaths walk.tree
        walk.allocator.identities walk.sources.graph)
      (((walk.context schema config).trusting false).compilePaths walk.tree
        walk.allocator.identities walk.sources.graph) :=
    PathContext.alike_compilePaths (.refl walk.sources.graph) declared
  rcases pathsAlike.cases with
    ⟨paths, lenientPaths, pruned, full, pathsDone, lenientPathsDone, samePlaces, graphs⟩ |
    ⟨error, _, _, refused, lenientRefused⟩
  · have fetchesAlike : Alike Eq GraphState.Prunes
        (Graphing.mergeAllFetches schema walk.tree walk.sources.declared { graph := pruned })
        (Graphing.mergeAllFetches schema walk.tree walk.sources.declared { graph := full }) :=
      Graphing.alike_mergeAllFetches ⟨graphs, rfl⟩
    rcases fetchesAlike.cases with
      ⟨_, _, fetched, lenientFetched, fetchesDone, lenientFetchesDone, -, states⟩ |
      ⟨error, _, _, refused, lenientRefused⟩
    · refine Or.inl ⟨_, _, finish_eq_ok.mpr ⟨paths, pruned, fetched, pathsDone, fetchesDone, rfl⟩,
        finish_eq_ok.mpr
          ⟨lenientPaths, full, lenientFetched, lenientPathsDone, lenientFetchesDone, rfl⟩, ?_⟩
      have identities : paths.map Prod.fst = lenientPaths.map Prod.fst := by
        rw [← List.forall₂_eq_eq_eq, List.forall₂_map_left_iff, List.forall₂_map_right_iff]
        exact samePlaces
      exact ⟨rfl, states.graph.assignLabels, rfl, rfl, states.declared, identities, rfl, rfl⟩
    · exact Or.inr ⟨error,
        finish_eq_error.mpr (Or.inr ⟨paths, pruned, _, pathsDone, refused⟩),
        finish_eq_error.mpr (Or.inr ⟨lenientPaths, full, _, lenientPathsDone, lenientRefused⟩)⟩
  · exact Or.inr ⟨error, finish_eq_error.mpr (Or.inl ⟨_, refused⟩),
      finish_eq_error.mpr (Or.inl ⟨_, lenientRefused⟩)⟩

end Walk

namespace Tree

/-- Trust in the schema decides neither whether a tree compiles nor which error is reported when
it does not, and it holds the same nodes. Where a tree compiles, trust only prunes the result. -/
theorem compile_strictSchema_prunes
    {tree : Tree}
    (reachable : tree.Reachable)
    (schema : Schema)
    (config : CompilerConfig)
    (owner : Owner) :
    (∃ strict lenient held,
      tree.compile schema { config with strictSchema := true } owner = (.ok strict, held) ∧
        tree.compile schema { config with strictSchema := false } owner = (.ok lenient, held) ∧
        strict.Prunes lenient) ∨
    ∃ error held,
      tree.compile schema { config with strictSchema := true } owner = (.error error, held) ∧
        tree.compile schema { config with strictSchema := false } owner = (.error error, held) := by
  cases walked : Walking.walkTree schema (tree.startWalk owner) with
  | error error walk =>
      exact Or.inr ⟨error, _, compile_of_walk_error _ walked, compile_of_walk_error _ walked⟩
  | ok value walk =>
      have declares := Walking.declares_of_walkTree reachable.placed walked
      rcases Walk.finish_prunes declares reachable.placed (Walking.inScope_of_walkTree walked) with
        ⟨strict, lenient, finished, lenientFinished, prunes⟩ | ⟨error, failed, lenientFailed⟩
      · exact Or.inl ⟨strict, lenient, walk.tree, compile_of_finish_ok walked finished,
          compile_of_finish_ok walked lenientFinished, prunes⟩
      · exact Or.inr ⟨error, _, compile_of_finish_error walked failed,
          compile_of_finish_error walked lenientFailed⟩

/-- Employees, each with a desk. -/
def desks : Schema :=
  ⟨⟨[("Employee", .ofFields "Employee" [.relation "desk" "Desk" .manyToOne false]),
    ("Desk", .ofFields "Desk" [.identifier "id"])]⟩⟩

/-- The identifiers of the desks that are joined to employees. -/
def deskIdentifiers : Tree :=
  (ofKind .query).performAll [
    .build (.root top "Employee"),
    .build (.join ⟨1⟩ "desk" .inner .optionallyMergeExisting),
    .build (.access ⟨2⟩ "id"),
    .build (.select top ⟨3⟩)]

/-- The join to the desks is used only without trust in the schema. -/
theorem deskIdentifiers_strictSchema_prunes :
    ∃ strict lenient held,
      deskIdentifiers.compile desks { strictSchema := true } ⟨8⟩ = (.ok strict, held) ∧
        deskIdentifiers.compile desks { strictSchema := false } ⟨8⟩ = (.ok lenient, held) ∧
        strict.Prunes lenient ∧
        strict.graph.isUsed ⟨1⟩ = false ∧ lenient.graph.isUsed ⟨1⟩ = true := by
  have unused : ((deskIdentifiers.compile desks { strictSchema := true } ⟨8⟩).1.toOption.any
      fun strict => !strict.graph.isUsed ⟨1⟩) = true := by
    cbv
  have used : ((deskIdentifiers.compile desks { strictSchema := false } ⟨8⟩).1.toOption.any
      fun lenient => lenient.graph.isUsed ⟨1⟩) = true := by
    cbv
  have reachable : deskIdentifiers.Reachable := ⟨.query, _, rfl⟩
  rcases compile_strictSchema_prunes reachable desks {} ⟨8⟩ with
    ⟨strict, lenient, held, done, lenientDone, prunes⟩ | ⟨error, held, failed, -⟩
  · rw [done] at unused
    rw [lenientDone] at used
    exact ⟨strict, lenient, held, done, lenientDone, prunes, (Bool.not_eq_true' _).mp unused, used⟩
  · rw [failed] at unused
    cases unused

end Tree
end QueryGraph
