import Mathlib
import QueryGraph.Proofs.Compile.Steps
import QueryGraph.Proofs.Path.Scope
import QueryGraph.Proofs.Tree.Placement
import QueryGraph.Proofs.Walk.Scope

/-!
# The scope of compiled paths

A path may only be written where the statement of its own source is open. Where that source
is correlated, the vertices of the path belong to the statement of the outer source. That
statement need not be around the occurrence: a correlated source is accepted as soon as the
outer source has a vertex.
-/

namespace QueryGraph

/-- A compiled path is in scope where all its vertices belong to statements around the
occurrence. -/
def CompiledGraph.InScope
    (compiled : CompiledGraph)
    (identity : PathIdentity)
    (path : CompiledPath) : Prop :=
  ∀ id ∈ path.vertices, ∃ vertex ∈ compiled.graph.vertex? id,
    vertex.statement ∈ identity.statements

namespace CompiledGraph

instance
    (compiled : CompiledGraph)
    (identity : PathIdentity)
    (path : CompiledPath) :
    Decidable (compiled.InScope identity path) :=
  inferInstanceAs (Decidable (∀ id ∈ path.vertices, ∃ vertex ∈ compiled.graph.vertex? id,
    vertex.statement ∈ identity.statements))

/-- A path of one statement is in scope where that statement is around the occurrence. -/
theorem inScope_iff
    {compiled : CompiledGraph}
    {identity : PathIdentity}
    {path : CompiledPath}
    {statement : NodeId}
    (stays : path.StaysIn compiled.graph statement) :
    compiled.InScope identity path ↔ statement ∈ identity.statements := by
  constructor
  · intro inScope
    obtain ⟨id, member⟩ := List.exists_mem_of_ne_nil _ stays.anchored
    obtain ⟨vertex, found, same⟩ := stays.belongs id member
    obtain ⟨again, againFound, around⟩ := inScope id member
    rw [found] at againFound
    cases againFound
    rwa [same] at around
  · intro around id member
    obtain ⟨vertex, found, same⟩ := stays.belongs id member
    exact ⟨vertex, found, by rwa [same]⟩

end CompiledGraph

/-- The paths of a finished walk keep to the statements that their sources read from. -/
theorem Walk.finish_staysIn
    {walk : Walk}
    {tree : Tree}
    {schema : Schema}
    {config : CompilerConfig}
    {compiled : CompiledGraph}
    (placed : tree.Placed)
    (declares : walk.Declares schema tree)
    (chains : ∀ identity ∈ walk.allocator.identities, ∃ chain,
      tree.pathChain identity.node = .ok chain ∧
        chain.source.statement ∈ identity.statements ∧
        chain.source.statement ∈ walk.entered)
    (finished : walk.finish schema config = .ok compiled)
    {identity : PathIdentity}
    {path : CompiledPath}
    (member : (identity, path) ∈ compiled.paths) :
    ∃ chain type statement, tree.pathChain identity.node = .ok chain ∧
      chain.source.statement ∈ identity.statements ∧
      tree.node? chain.sourceId = some (.source chain.source) ∧
      Describes schema tree chain.sourceId type statement ∧
      path.StaysIn compiled.graph statement := by
  obtain ⟨paths, graph, fetched, pathsDone, fetchesDone, rfl⟩ := finish_eq_ok.mp finished
  have pathsHere := PathContext.compilePaths_of_evolves
    (Tree.Matches.of_nodes declares.nodes.symm []).evolves pathsDone
  have sound : (walk.context schema config).Sound tree walk.sources.graph := declares.sound
  have leads : ∀ identity ∈ walk.allocator.identities, ∃ route,
      Route.Leads tree identity.node route ∧ tree.route identity.node = .ok route := by
    intro identity member
    obtain ⟨chain, found, -⟩ := chains identity member
    exact placed.route_of_pathChain found
  obtain ⟨-, -, stays⟩ := PathContext.compilePaths_stays sound leads pathsHere
  obtain ⟨listed, pathStays⟩ := stays identity path member
  obtain ⟨chain, found, around, entered⟩ := chains identity listed
  obtain ⟨route, routeLeads, sourceFound, onRoute, -⟩ := placed.leads_of_chain found
  -- The statement of the source was entered, so the source is declared, and described.
  obtain ⟨id, declared⟩ := DeclarationMap.find?_of_mem_keys (declares.complete sourceFound entered)
  obtain ⟨vertex, -, described⟩ := declares.sound.described declared
  obtain ⟨statement, routeStays⟩ := routeLeads.exists_staysIn schema
  have same := routeStays chain.sourceId onRoute described
  rw [same] at described
  have finalGraph := (Graphing.grows_mergeAllFetches fetchesDone).trans
    (JoinGraph.retouched_assignLabels fetched.graph config
      (walk.statementRoots.flatMap Prod.snd)).grows
  exact ⟨chain, vertex.recordType, statement, found, around, sourceFound, described,
    (pathStays route statement (routeLeads.route placed) routeStays).of_grows finalGraph⟩

namespace Tree

/-- The vertices of a compiled path belong to the statement of the source that its own source
finally stands for. The path is in scope exactly where that statement is around the
occurrence, and that is so wherever the statements around the occurrence are nested as they
were declared. -/
theorem compiled_path_inScope_iff
    {tree held : Tree}
    {schema : Schema}
    {config : CompilerConfig}
    {owner : Owner}
    {compiled : CompiledGraph}
    {identity : PathIdentity}
    {path : CompiledPath}
    (reachable : tree.Reachable)
    (done : tree.compile schema config owner = (.ok compiled, held))
    (member : (identity, path) ∈ compiled.paths) :
    ∃ chain outer source,
      tree.pathChain identity.node = .ok chain ∧
        chain.source.statement ∈ identity.statements ∧
        tree.resolveCorrelation chain.sourceId = .ok outer ∧
        tree.source outer = .ok source ∧
        path.StaysIn compiled.graph source.statement ∧
        (compiled.InScope identity path ↔ source.statement ∈ identity.statements) ∧
        (tree.Nested identity.statements -> source.statement ∈ identity.statements) := by
  have placed := reachable.placed
  obtain ⟨walk, walked, finished, rfl⟩ := compile_eq_ok.mp done
  have declares := Walking.declares_of_walkTree placed walked
  obtain ⟨chain, type, statement, found, around, sourceFound, described, stays⟩ :=
    Walk.finish_staysIn placed declares (Walking.inScope_of_walkTree walked) finished member
  obtain ⟨outer, source, resolved, outerFound, rfl⟩ := described.resolveCorrelation placed
  exact ⟨chain, outer, source, found, around, resolved, source_eq_ok.mpr outerFound, stays,
    CompiledGraph.inScope_iff stays,
    fun nested => nested.of_resolveFrom placed sourceFound around resolved outerFound⟩

/-- Employees and departments, both with names. -/
def organisation : Schema :=
  ⟨⟨[("Employee", .ofFields "Employee" [.scalar "name"]),
    ("Department", .ofFields "Department" [.scalar "name"])]⟩⟩

/-- A subquery over departments, and a subquery of that one which names the department. Both
are selected by the outermost statement, in a given order. -/
def relocated (selected : List NodeId) : Tree :=
  (ofKind .query).performAll ([
    .build (.root top "Employee"),
    .build (.subquery top),
    .build (.root ⟨2⟩ "Department"),
    .build (.subquery ⟨2⟩),
    .build (.correlate ⟨4⟩ ⟨3⟩),
    .build (.access ⟨5⟩ "name"),
    .build (.select ⟨4⟩ ⟨6⟩),
    .build (.select ⟨2⟩ ⟨3⟩)] ++ selected.map fun subquery => .build (.select top subquery))

theorem relocated_inScope_iff :
    ∃ compiled held identity path chain outer source,
      (relocated [⟨2⟩, ⟨4⟩]).compile organisation {} ⟨8⟩ = (.ok compiled, held) ∧
        (identity, path) ∈ compiled.paths ∧
        (relocated [⟨2⟩, ⟨4⟩]).pathChain identity.node = .ok chain ∧
        (relocated [⟨2⟩, ⟨4⟩]).resolveCorrelation chain.sourceId = .ok outer ∧
        (relocated [⟨2⟩, ⟨4⟩]).source outer = .ok source ∧
        (compiled.InScope identity path ↔ source.statement ∈ identity.statements) := by
  have succeeds : (match ((relocated [⟨2⟩, ⟨4⟩]).compile organisation {} ⟨8⟩).1 with
      | .ok compiled => !compiled.paths.isEmpty
      | .error _ => false) = true := by
    cbv
  cases outcome : (relocated [⟨2⟩, ⟨4⟩]).compile organisation {} ⟨8⟩ with
  | mk result held =>
      rw [outcome] at succeeds
      cases result with
      | error error => cases succeeds
      | ok compiled =>
          simp only [Bool.not_eq_true', List.isEmpty_eq_false_iff_exists_mem] at succeeds
          obtain ⟨⟨identity, path⟩, member⟩ := succeeds
          obtain ⟨chain, outer, source, found, -, resolved, outerFound, -, inScope, -⟩ :=
            compiled_path_inScope_iff ⟨.query, _, rfl⟩ outcome member
          exact ⟨compiled, held, identity, path, chain, outer, source, rfl, member, found,
            resolved, outerFound, inScope⟩

/-- A subquery that is used outside the statement it was declared in reads a source that is
out of scope, when that statement happens to be visited first. Visited in the other order the
same subquery is refused. -/
theorem relocated_path_escapes_scope :
    (∃ compiled held identity path,
      (relocated [⟨2⟩, ⟨4⟩]).compile organisation {} ⟨8⟩ = (.ok compiled, held) ∧
        (identity, path) ∈ compiled.paths ∧ ¬ compiled.InScope identity path) ∧
      ((relocated [⟨4⟩, ⟨2⟩]).compile organisation {} ⟨8⟩).1 =
        .error (.tree (.rootOutsideStatement ⟨3⟩ ⟨4⟩)) := by
  have escapes : (match ((relocated [⟨2⟩, ⟨4⟩]).compile organisation {} ⟨8⟩).1 with
      | .ok compiled => compiled.paths.any fun entry => !decide (compiled.InScope entry.1 entry.2)
      | .error _ => false) = true := by
    cbv
  refine ⟨?_, by cbv⟩
  cases outcome : (relocated [⟨2⟩, ⟨4⟩]).compile organisation {} ⟨8⟩ with
  | mk result held =>
      rw [outcome] at escapes
      cases result with
      | error error => cases escapes
      | ok compiled =>
          obtain ⟨⟨identity, path⟩, member, outside⟩ := List.any_eq_true.mp escapes
          simp only [Bool.not_eq_true', decide_eq_false_iff_not] at outside
          exact ⟨compiled, held, identity, path, rfl, member, outside⟩

end Tree
end QueryGraph
