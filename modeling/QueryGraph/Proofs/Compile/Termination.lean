import QueryGraph.Proofs.Compile.Refusal
import QueryGraph.Proofs.Graph.History
import QueryGraph.Proofs.Tree.Descent
import QueryGraph.Proofs.Walk.Reentry

/-!
# Compilations end

Every recursion of a compilation carries a bound on its depth. In a tree that was built call by
call, none of them reaches its bound: with any greater one it does the same. A statement that is
reached again while it is open is refused, so a tree that leads back into one never compiles.
-/

namespace QueryGraph

open Operation

namespace Walking

variable {schema : Schema} {tree : Tree} {enclosing : List NodeId} {id : NodeId}

/-- With any bounds beyond the number of nodes, the visit of a statement is the same. -/
theorem coincide_visitStatement_of_size
    {bound otherBound fuel other : Nat}
    (orderly : tree.Orderly)
    (deep : tree.size < bound)
    (otherDeep : tree.size < otherBound)
    (enough : tree.size < fuel)
    (otherEnough : tree.size < other) :
    Coincide tree enclosing (visitStatement schema bound fuel id)
      (visitStatement schema otherBound other id) := by
  have unopened := tree.unopened_le enclosing
  exact coincide_visitStatement orderly deep otherDeep (by omega) (by omega)

end Walking

namespace Tree

variable {tree held : Tree} {schema : Schema} {config : CompilerConfig} {owner : Owner}
  {error : CompileError}

/-- A compilation is never given up because it goes too deep. -/
theorem Orderly.founded_of_compile
    (orderly : tree.Orderly)
    (failed : tree.compile schema config owner = (.error error, held)) :
    error ≠ .unfounded := by
  have walks : Walking.Settled tree [] (Walking.visitStatement schema (tree.size + 1)
      (tree.size + 1) top) :=
    Walking.settled_visitStatement orderly (Nat.lt_succ_self _)
      (Nat.lt_succ_of_le (tree.unopened_le []))
  have ends : Ends (fun _ after => after.Amid tree []) (· ≠ .unfounded)
      (Walking.walkTree schema (tree.startWalk owner)) := walks (tree.startWalk owner) ⟨rfl, rfl⟩
  cases walked : Walking.walkTree schema (tree.startWalk owner) with
  | error fault walk =>
      rw [compile_of_walk_error config walked] at failed
      cases failed
      exact ends.of_error walked
  | ok value walk =>
      cases finished : walk.finish schema config with
      | error fault =>
          rw [compile_of_finish_error walked finished] at failed
          cases failed
          rintro rfl
          cases failsLookup_of_finish orderly walked finished
      | ok compiled =>
          rw [compile_of_finish_ok walked finished] at failed
          cases failed

/-- Where the expressions lead back into an open statement, the walk does not succeed. -/
theorem Reenters.refused
    (reenters : tree.Reenters)
    (orderly : tree.Orderly)
    (admitting : tree.Admitting) :
    ∃ error, (tree.compile schema config owner).1 = .error error := by
  cases outcome : (tree.compile schema config owner).1 with
  | error error => exact ⟨error, rfl⟩
  | ok compiled =>
      obtain ⟨walk, walked, -⟩ := compile_eq_ok.mp (Prod.ext outcome rfl)
      have visitedTop : Walking.Visited schema tree [] top :=
        ⟨tree.size + 1, tree.startWalk owner, walk, Nat.lt_succ_of_le (tree.unopened_le []),
          ⟨rfl, rfl⟩, walked⟩
      obtain ⟨id, leads, again⟩ := reenters
      obtain ⟨enclosing, -, visited⟩ := visitedTop.exists_of_enters orderly admitting leads
      exact absurd again (visited.not_enters_self orderly admitting)

/-- What it takes for every compilation of a tree to end. -/
structure Terminates (tree : Tree) : Prop where
  /-- Correlations lead to a source that stands for itself. -/
  correlations : tree.Settles tree.resolveFrom
  /-- The statements around a statement lead to one that nothing encloses. -/
  enclosure : ∀ ancestor, tree.Settles (tree.enclosesFrom ancestor)
  /-- What a path hangs off leads to a source. -/
  chains : tree.Settles (PathChain.ofNode tree)
  /-- The way of a path, along which it is compiled, leads to its origin. -/
  routes : tree.Settles (Route.ofNode tree)
  /-- The joins below a source, with their conditions, come to an end. -/
  joins : tree.Settles (SourceTree.ofNode tree)
  /-- The fetches below a source, which are merged one by one, come to an end. -/
  fetches : tree.Settles (FetchTree.ofNode tree)
  /-- The visit of a statement inside any open ones ends by itself. -/
  statements : ∀ schema enclosing id {bound otherBound fuel other},
    tree.size < bound -> tree.size < otherBound -> tree.size < fuel -> tree.size < other ->
      Walking.Coincide tree enclosing (Walking.visitStatement schema bound fuel id)
        (Walking.visitStatement schema otherBound other id)
  /-- So does the visit of an expression. -/
  expressions : ∀ schema enclosing id {bound otherBound fuel other},
    tree.size < bound -> tree.size < otherBound -> tree.size < fuel -> tree.size < other ->
      Walking.Coincide tree enclosing
        (Walking.visitExpression (Walking.visitStatement schema bound fuel) bound id)
        (Walking.visitExpression (Walking.visitStatement schema otherBound other) otherBound id)
  /-- Marking a vertex and everything above it ends, on whatever graph came about. -/
  marks : ∀ history graph, JoinGraph.Steps {} history graph -> ∀ id fuel, graph.size ≤ fuel ->
    graph.climb fuel id = graph.ancestry id
  /-- No compilation is given up because it goes too deep. -/
  founded : ∀ schema config owner error held,
    tree.compile schema config owner = (.error error, held) -> error ≠ .unfounded
  /-- A tree whose expressions lead back into an open statement does not compile. -/
  reentry : tree.Reenters -> ∀ schema config owner,
    ∃ error, (tree.compile schema config owner).1 = .error error

/-- Whatever is called, in whatever order and with whatever arguments: every compilation of the
tree ends, and one of a tree that leads back into itself ends with an error. -/
theorem performAll_terminates
    (kind : StatementKind)
    (calls : List TreeCall) :
    ((ofKind kind).performAll calls).Terminates := by
  have reachable : ((ofKind kind).performAll calls).Reachable := ⟨kind, calls, rfl⟩
  have orderly := reachable.orderly
  constructor
  · exact orderly.placed.descends_resolveFrom.settles
  · exact fun ancestor => (orderly.descends_enclosesFrom ancestor).settles
  · exact orderly.placed.descends_chain.settles
  · exact orderly.placed.descends_route.settles
  · exact orderly.descends_source.settles
  · exact orderly.descends_fetch.settles
  · exact fun schema enclosing id _ _ _ _ => Walking.coincide_visitStatement_of_size orderly
  · intro schema enclosing id bound otherBound fuel other deep otherDeep enough otherEnough
    refine Walking.coincide_visitExpression orderly.referring (fun subquery => ?_) ?_ ?_
    · exact Walking.coincide_visitStatement_of_size orderly deep otherDeep enough otherEnough
    · exact Nat.lt_of_le_of_lt (Nat.min_le_right _ _) deep
    · exact Nat.lt_of_le_of_lt (Nat.min_le_right _ _) otherDeep
  · exact fun history graph steps id fuel enough =>
      (steps.forest JoinGraph.forest_empty).climb_eq_ancestry enough
  · exact fun schema config owner error held failed => orderly.founded_of_compile failed
  · exact fun reenters schema config owner => reenters.refused orderly reachable.admitting

/-- The crews for which a subquery exists that selects itself. -/
def selfSelection : Tree :=
  (ofKind .query).performAll [
    .build (.root top "Crew"),
    .build (.subquery top),
    .build (.root ⟨2⟩ "Crew"),
    .build (.select ⟨2⟩ ⟨2⟩),
    .build (.expression .exists [⟨2⟩]),
    .build (.restrict top ⟨4⟩)]

example : selfSelection.Reenters ∧
    (selfSelection.compile crews {} ⟨8⟩).1 = .error (.recursiveSubquery ⟨2⟩) := by
  refine ⟨?_, by cbv⟩
  have nodes : selfSelection.nodes = #[
      .statement { kind := .query, roots := [⟨1⟩], restriction := some ⟨4⟩ },
      .source { statement := top, kind := .root "Crew" },
      .statement { kind := .subquery, parent := some top, roots := [⟨3⟩], selection := [⟨2⟩] },
      .source { statement := ⟨2⟩, kind := .root "Crew" },
      .expression .exists [⟨2⟩]] := by
    cbv
  have isStatement : selfSelection.HasStatement ⟨2⟩ := ⟨_, by rw [node?, nodes]; rfl⟩
  have inTop : selfSelection.Enters top ⟨2⟩ :=
    ⟨_, .restriction, ⟨4⟩, by rw [node?, nodes]; rfl, List.mem_cons_self,
      .single ⟨_, by rw [node?, nodes]; rfl, List.mem_cons_self⟩, isStatement⟩
  have inItself : selfSelection.Enters ⟨2⟩ ⟨2⟩ :=
    ⟨_, .selection, ⟨2⟩, by rw [node?, nodes]; rfl, List.mem_cons_self, .refl, isStatement⟩
  exact ⟨⟨2⟩, .single inTop, .single inItself⟩

end Tree
end QueryGraph
