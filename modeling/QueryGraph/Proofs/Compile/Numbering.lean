import QueryGraph.Proofs.Compile.Forest
import QueryGraph.Proofs.Compile.Refusal
import QueryGraph.Proofs.Graph.Numbers
import QueryGraph.Proofs.Graph.Suggestions
import QueryGraph.Proofs.Walk.Quiet
import QueryGraph.Proofs.Walk.RootLists

/-!
# Numbers in a result

The used vertices of a result are numbered in the order in which one meets them on a walk through
the statements, as they were entered, through the roots of each statement, as they were declared,
and down from each root. The vertices that are not used are not counted. A walk builds vertices for
the declared sources, so it suggests an alias only where a source of the tree does, and it labels
nothing.
-/

namespace QueryGraph

/-- A source of a tree suggests an alias. -/
def Tree.Suggests
    (tree : Tree)
    (hint : String) : Prop :=
  ∃ id body, tree.node? id = some (.source body) ∧ body.aliasHint = some hint

theorem Tree.suggests_of_node?
    {tree : Tree}
    {id : NodeId}
    {body : Source}
    (found : tree.node? id = some (.source body))
    (hint : String)
    (suggested : body.aliasHint = some hint) :
    tree.Suggests hint :=
  ⟨id, body, found, suggested⟩

namespace Graphing

variable {schema : Schema} {tree : Tree} {before after : GraphState}

theorem bare_buildJoins
    {parent : VertexId}
    {joins : List SourceTree}
    (bare : before.graph.Bare tree.Suggests)
    (read : ∀ join ∈ joins, join.ReadFrom tree)
    (done : buildJoins schema parent joins before = .ok () after) :
    after.graph.Bare tree.Suggests := by
  induction parent, joins using buildJoins.induct generalizing before after with
  | case1 parent =>
      rw [buildJoins] at done
      cases done
      exact bare
  | case2 parent node source fetches joins rest _ _ _ _ _ isJoin joinsHypothesis restHypothesis =>
      obtain ⟨above, field, direction, mode, on, target, resolution, graph, below, -, -, resolved,
        inner, last⟩ := buildJoins_cons_eq_ok.mp done
      obtain ⟨present, -, readJoins, -⟩ := SourceTree.readFrom_mk (read _ List.mem_cons_self)
      have suggests : (Contributor.join node
          ⟨above, field, direction, mode, source.aliasHint, on⟩).Suggests tree.Suggests :=
        Tree.suggests_of_node? present
      have bareGraph := bare.resolve suggests resolved
      have bareBelow := joinsHypothesis resolution bareGraph
        (fun join member => (readJoins join member).1) inner
      exact restHypothesis bareBelow
        (fun join member => read join (List.mem_cons_of_mem _ member)) last
  | case3 parent node source fetches joins rest notJoin =>
      obtain ⟨above, field, direction, mode, on, _, _, _, _, isJoin, -⟩ :=
        buildJoins_cons_eq_ok.mp done
      exact absurd isJoin (notJoin above field direction mode on)

theorem bare_buildRoot
    {vertex : VertexId}
    {source : SourceTree}
    (bare : before.graph.Bare tree.Suggests)
    (read : source.ReadFrom tree)
    (done : buildRoot schema source before = .ok vertex after) :
    after.graph.Bare tree.Suggests := by
  obtain ⟨id, body, fetches, joins⟩ := source
  obtain ⟨present, -, readJoins, -⟩ := SourceTree.readFrom_mk read
  obtain ⟨recordType, -, -, -, -, inner⟩ := buildRoot_eq_ok.mp done
  have root : (Vertex.root recordType body.aliasHint body.statement).Bare tree.Suggests :=
    ⟨⟨rfl, rfl⟩, Tree.suggests_of_node? present⟩
  exact bare_buildJoins (bare.addRoot root) (fun join member => (readJoins join member).1) inner

end Graphing

/-- On a tree, a walk has built vertices whose aliases are suggested by the tree. -/
structure Walk.Bare
    (tree : Tree)
    (walk : Walk) : Prop where
  nodes : walk.tree.nodes = tree.nodes
  graph : walk.sources.graph.Bare tree.Suggests

/-- A step that suggests only aliases of a tree. -/
def Walk.KeepsBare (tree : Tree) (before after : Walk) : Prop :=
  before.Bare tree -> after.Bare tree

namespace Walking

variable {schema : Schema} {tree : Tree} {before after : Walk}

theorem keepsBare_of_quiet
    (quiet : before.Quiet after) :
    Walk.KeepsBare tree before after := by
  intro bare
  refine ⟨quiet.nodes.trans bare.nodes, ?_⟩
  rw [quiet.sources]
  exact bare.graph

theorem keepsBare_lawful (tree : Tree) : (succeeding (Walk.KeepsBare tree)).Lawful :=
  succeeding_lawful (fun _ => id) fun earlier later => later ∘ earlier

theorem keepsBare_visitRoot
    {isFirst : Bool}
    {root : NodeId}
    {vertices : List VertexId}
    (done : visitRoot schema isFirst root before = .ok vertices after) :
    Walk.KeepsBare tree before after := by
  obtain ⟨source, held, read, holds, last⟩ := visitRoot_eq_ok.mp done
  have quiet := quiet_of_holdAll holds
  rcases last with ⟨-, -, rfl⟩ | ⟨-, vertex, sources, built, -, rfl⟩
  · exact keepsBare_of_quiet quiet
  intro bare
  have readHere : source.ReadFrom tree := by
    have found := (Tree.Matches.of_nodes bare.nodes.symm source.ids).sourceTree
      (List.Subset.refl _) read
    exact SourceTree.readFrom_of_ofNode found
  obtain ⟨nodes, graph⟩ := keepsBare_of_quiet quiet bare
  exact ⟨nodes, Graphing.bare_buildRoot graph readHere built⟩

theorem keepsBare_visitCorrelation
    {statement correlated : NodeId}
    (done : visitCorrelation statement correlated before = .ok () after) :
    Walk.KeepsBare tree before after := by
  obtain ⟨held, outer, vertex, holds, -, -, rfl⟩ := visitCorrelation_eq_ok.mp done
  intro bare
  obtain ⟨nodes, graph⟩ := keepsBare_of_quiet (quiet_of_hold holds) bare
  exact ⟨nodes, graph⟩

theorem keepsBare_preserved (tree : Tree) : Preserved schema (Walk.KeepsBare tree) where
  quiet := keepsBare_of_quiet
  trans earlier later := later ∘ earlier
  sources := by
    intro id statement before after _ done
    obtain ⟨-, roots, built, correlated, rootsDone, correlationsDone, rfl⟩ :=
      visitSources_eq_ok.mp done
    have rootsKeep : Walk.KeepsBare tree before built :=
      (Obeys.mapM (keepsBare_lawful tree) fun root _ =>
        obeys_succeeding keepsBare_visitRoot).of_ok rootsDone
    have correlationsKeep : Walk.KeepsBare tree built correlated :=
      (Obeys.forM (keepsBare_lawful tree) fun source _ =>
        obeys_succeeding keepsBare_visitCorrelation).of_ok correlationsDone
    intro bare
    have kept := correlationsKeep (rootsKeep bare)
    split
    · exact ⟨kept.nodes, kept.graph⟩
    · exact kept

/-- A walk builds vertices without labels, with the aliases that the tree suggests. -/
theorem bare_of_walkTree
    {owner : Owner}
    (done : walkTree schema { tree := tree, guard := { owner := owner } } = .ok () after) :
    after.sources.graph.Bare tree.Suggests :=
  ((keepsBare_preserved tree).of_walkTree done
    ⟨rfl, JoinGraph.bare_empty tree.Suggests⟩).graph

end Walking

/-! ## Results -/

theorem GraphState.Fetches.bare
    {schema : Schema}
    {tree : Tree}
    {start : JoinGraph}
    {after : GraphState}
    {allowed : String -> Prop}
    (fetches : GraphState.Fetches schema tree { graph := start } after)
    (bare : start.Bare allowed) :
    after.graph.Bare allowed := by
  obtain ⟨history, tells⟩ := fetches.tells
  refine bare.steps tells.steps (fun member => ?_) fun member => ?_
  · obtain ⟨_, _, _, _, contrary, -⟩ := tells.declaredBy member
    cases contrary
  · obtain ⟨_, _, _, _, same, -⟩ := tells.declaredBy member
    cases same
    exact fun _ contrary => by cases contrary

namespace Tree.Course

variable {tree : Tree} {schema : Schema} {config : CompilerConfig} {owner : Owner}
  {compiled : CompiledGraph} {walk : Walk} {graph : JoinGraph} {fetched : GraphState}
  {walked followed : List GraphEvent}
  (course : tree.Course schema config owner compiled walk graph fetched walked followed)

include course

/-- Until the labels are given out there are none, and every suggested alias is one of the
tree. -/
theorem bare_fetched : fetched.graph.Bare tree.Suggests := by
  have bareWalk := Walking.bare_of_walkTree course.walkDone
  refine course.fetches.bare (bareWalk.steps course.steps course.rootless ?_)
  intro contributor parent id member
  obtain ⟨name, rfl, -⟩ := course.navigations.mp ⟨parent, member⟩
  exact fun _ contrary => by cases contrary

theorem enumerated :
    compiled.graph.Enumerated compiled.roots ∧
      fetched.graph.countLabels config compiled.roots =
        (compiled.graph, compiled.graph.usedCount) := by
  have same : compiled.graph = fetched.graph.assignLabels config fetched.graph.rootIds := by
    rw [course.graph_eq, course.rootIds_fetched]
  rw [course.roots_eq]
  exact JoinGraph.enumerated_assignLabels same course.forest_compiled course.ordered_compiled
    course.bare_fetched.unlabelled

/-- A vertex of a result has at most an alias that the tree suggests. -/
theorem suggests_compiled
    {id : VertexId}
    {vertex : Vertex}
    {hint : String}
    (found : compiled.graph.vertex? id = some vertex)
    (suggested : vertex.aliasHint = some hint) :
    tree.Suggests hint := by
  have same : (compiled.graph.vertex? id).map Vertex.aliasHint =
      (fetched.graph.vertex? id).map Vertex.aliasHint := by
    rw [course.graph_eq]
    exact JoinGraph.map_vertex?_assignLabels _ _ _ _ fun _ _ _ => rfl
  rw [found, Option.map_some, suggested] at same
  obtain ⟨earlier, earlierFound, isHint⟩ := Option.map_eq_some_iff.mp same.symm
  exact (course.bare_fetched id earlier earlierFound).aliasHint hint isHint

theorem spelled : compiled.graph.Spelled config := by
  rw [course.graph_eq]
  exact JoinGraph.spelled_assignLabels course.bare_fetched.unlabelled

/-- A walk that succeeds began at a top-level statement. -/
theorem isTopLevel : ∃ body, tree.node? top = some (.statement body) ∧
    body.kind.isTopLevel = true := by
  have walked := course.walkDone
  unfold Walking.walkTree at walked
  rw [Operation.bind_of_ok (Operation.get_apply _)] at walked
  obtain ⟨-, held, body, holds, found, inside⟩ := Walking.enterStatement_eq_ok.mp walked
  obtain ⟨pushes, -⟩ := Walking.within_eq_ok.mp inside
  refine ⟨body, ?_, ?_⟩
  · have nodes := (Walking.tallies_of_hold holds).nodes
    rw [← Tree.statement_eq_ok.mp found, Tree.node?_eq_of_nodes nodes]
    rfl
  · have stack : held.allocator.peek = none := by
      obtain ⟨frozen, -, rfl⟩ := Walking.hold_eq_ok.mp holds
      rfl
    rw [stack] at pushes
    cases kind : body.kind with
    | subquery =>
        rw [kind] at pushes
        cases pushes
    | _ => rfl

/-- The walk of a compilation follows all visits of its tree. -/
theorem follows (orderly : tree.Orderly) :
    Itinerary.Follows ⟨schema, tree, owner⟩ [] [] tree.visits walk := by
  obtain ⟨body, found, isTopLevel⟩ := course.isTopLevel
  exact (ends_startWalk orderly found isTopLevel).of_ok course.walkDone

end Tree.Course

/-- A result whose used vertices are numbered in the order of a walk through what was compiled. -/
structure CompiledGraph.IsNumbered
    (compiled : CompiledGraph)
    (tree : Tree)
    (config : CompilerConfig) : Prop where
  enumerated : compiled.graph.Enumerated compiled.roots
  /-- The labels come from a counter that ends at the number of used vertices. -/
  counted : ∃ before : JoinGraph, before.Unlabelled ∧ before.size = compiled.graph.size ∧
    before.countLabels config compiled.roots = (compiled.graph, compiled.graph.usedCount)
  bounded : compiled.graph.usedCount ≤ compiled.graph.size
  /-- Statements are listed in the order in which they are visited first. -/
  statements : compiled.statements = tree.entered tree.visits
  first : compiled.statements.head? = some Tree.top
  /-- The roots of a statement are listed in the order in which they were declared. -/
  roots : ∀ {statement roots}, (statement, roots) ∈ compiled.statementRoots -> ∃ body,
    tree.node? statement = some (.statement body) ∧
      body.roots.map compiled.sources.find? = roots.map some

namespace Tree

variable {tree held : Tree} {schema : Schema} {config : CompilerConfig} {owner : Owner}
  {compiled : CompiledGraph}

/-- The used vertices of every result are numbered from zero in the order of a walk through it. -/
theorem compiled_isNumbered
    (reachable : tree.Reachable)
    (done : tree.compile schema config owner = (.ok compiled, held)) :
    compiled.IsNumbered tree config := by
  obtain ⟨walk, graph, fetched, walked, followed, course⟩ := compile_course reachable done
  obtain ⟨enumerated, counted⟩ := course.enumerated
  have follows := course.follows reachable.orderly
  have lists := Walking.lists_of_walkTree reachable.listed reachable.referring course.walkDone
  have statements : compiled.statements = tree.entered tree.visits := by
    rw [← follows.entered, course.result]
    rfl
  obtain ⟨body, found, -⟩ := course.isTopLevel
  exact {
    enumerated := enumerated
    counted := by
      refine ⟨fetched.graph, course.bare_fetched.unlabelled, ?_, counted⟩
      rw [course.graph_eq]
      exact (JoinGraph.size_eq_of_edges JoinGraph.edge?_assignLabels).symm
    bounded := by
      have counts := List.countP_le_length (p := compiled.graph.isUsed) (l := compiled.graph.ids)
      rwa [JoinGraph.ids, List.length_map, List.length_range] at counts
    statements := statements
    first := by
      rw [statements]
      exact head?_entered_visits found
    roots := by
      rw [course.result]
      exact lists.roots }

/-- A crew whose members are joined and not used, beside the name of a sailor of its own. -/
def crewBesideSailor : Tree :=
  (ofKind .query).performAll [
    .build (.root top "Crew"),
    .build (.join ⟨1⟩ "members" .left .optionallyMergeExisting),
    .build (.subquery top),
    .build (.root ⟨3⟩ "Sailor"),
    .build (.access ⟨4⟩ "name"),
    .build (.select ⟨3⟩ ⟨5⟩),
    .build (.access ⟨1⟩ "id"),
    .build (.select top ⟨6⟩),
    .build (.select top ⟨3⟩)]

/-- The crew has the first number and the sailor the next one, and the join between them none. -/
theorem crewBesideSailor_isNumbered :
    ∃ compiled held, crewBesideSailor.compile crews {} ⟨8⟩ = (.ok compiled, held) ∧
      compiled.statements = [top, ⟨3⟩] ∧ compiled.graph.size = 3 ∧
      compiled.graph.labelled = [⟨0⟩, ⟨2⟩] ∧ compiled.IsNumbered crewBesideSailor {} := by
  have succeeds : ((crewBesideSailor.compile crews {} ⟨8⟩).1.toOption.any fun compiled =>
      decide (compiled.statements = [top, ⟨3⟩] ∧ compiled.graph.size = 3 ∧
        compiled.graph.labelled = [⟨0⟩, ⟨2⟩])) = true := by
    cbv
  obtain ⟨compiled, held, done, numbered⟩ := exists_compiled succeeds
  obtain ⟨statements, size, labelled⟩ := of_decide_eq_true numbered
  exact ⟨compiled, held, done, statements, size, labelled,
    compiled_isNumbered ⟨.query, _, rfl⟩ done⟩

end Tree
end QueryGraph
