import QueryGraph.Proofs.Graph.Descent
import QueryGraph.Proofs.Walk.History

/-!
# The roots of a walk

A walk adds a root to the graph when it enters a statement for the first time, and lists it
under that statement. So the listed roots are all roots of the graph, each with the statement
under which it is listed.
-/

namespace QueryGraph

namespace Graphing

variable {schema : Schema} {before after : GraphState}

/-- Joins are no roots. -/
theorem roots_buildJoins
    {parent : VertexId}
    {joins : List SourceTree}
    (done : buildJoins schema parent joins before = .ok () after) :
    before.graph.Grows after.graph ∧ after.graph.rootIds = before.graph.rootIds := by
  induction parent, joins using buildJoins.induct generalizing before after with
  | case1 parent =>
      rw [buildJoins] at done
      cases done
      exact ⟨.refl _, rfl⟩
  | case2 parent node source fetches joins rest _ _ _ _ _ isJoin joinsHypothesis restHypothesis =>
      obtain ⟨_, field, direction, mode, on, target, resolution, graph, below, -, -, resolved,
        inner, last⟩ := buildJoins_cons_eq_ok.mp done
      obtain ⟨innerGrows, innerRoots⟩ := joinsHypothesis resolution inner
      obtain ⟨lastGrows, lastRoots⟩ := restHypothesis last
      refine ⟨((JoinGraph.grows_resolve resolved).trans innerGrows).trans lastGrows, ?_⟩
      rw [lastRoots, innerRoots]
      exact JoinGraph.rootIds_resolve resolved
  | case3 parent node source fetches joins rest notJoin =>
      obtain ⟨owner, field, direction, mode, on, _, _, _, _, isJoin, -⟩ :=
        buildJoins_cons_eq_ok.mp done
      exact absurd isJoin (notJoin owner field direction mode on)

/-- A root that is built is the last root of the graph, and has the statement of its source. -/
theorem roots_buildRoot
    {vertex : VertexId}
    {id : NodeId}
    {body : Source}
    {fetches : List FetchTree}
    {joins : List SourceTree}
    (done : buildRoot schema (.mk id body fetches joins) before = .ok vertex after) :
    before.graph.Grows after.graph ∧
      after.graph.rootIds = before.graph.rootIds ++ [vertex] ∧
      ∃ root, after.graph.vertex? vertex = some root ∧ root.statement = body.statement := by
  obtain ⟨recordType, -, -, -, rfl, inner⟩ := buildRoot_eq_ok.mp done
  obtain ⟨innerGrows, innerRoots⟩ := roots_buildJoins inner
  have grows := JoinGraph.grows_addRoot before.graph
    (.root recordType body.aliasHint body.statement)
  have added : (before.graph.addRoot
      (.root recordType body.aliasHint body.statement)).2.vertex? ⟨before.graph.size⟩ =
        some (.root recordType body.aliasHint body.statement) := by
    rw [JoinGraph.vertex?_addRoot, if_pos rfl]
  obtain ⟨root, found, -, -, statement⟩ := innerGrows _ _ added
  refine ⟨grows.trans innerGrows, ?_, root, found, statement⟩
  rw [innerRoots]
  exact JoinGraph.rootIds_addRoot _ _ _ _

end Graphing

namespace Walk

/-- A step that adds roots of a statement, and lists nothing. -/
structure Plants
    (statement : NodeId)
    (added : List VertexId)
    (before after : Walk) : Prop where
  nodes : after.tree.nodes = before.tree.nodes
  statementRoots : after.statementRoots = before.statementRoots
  grows : before.sources.graph.Grows after.sources.graph
  roots : after.sources.graph.rootIds = before.sources.graph.rootIds ++ added
  statements : ∀ root ∈ added, ∃ vertex, after.sources.graph.vertex? root = some vertex ∧
    vertex.statement = statement

namespace Plants

theorem of_quiet
    {before after : Walk}
    (statement : NodeId)
    (quiet : before.Quiet after) :
    before.Plants statement [] after where
  nodes := quiet.nodes
  statementRoots := quiet.statementRoots
  grows := by
    rw [quiet.sources]
    exact .refl _
  roots := by rw [quiet.sources, List.append_nil]
  statements := List.forall_mem_nil _

theorem trans
    {statement : NodeId}
    {added more : List VertexId}
    {first second third : Walk}
    (earlier : first.Plants statement added second)
    (later : second.Plants statement more third) :
    first.Plants statement (added ++ more) third where
  nodes := later.nodes.trans earlier.nodes
  statementRoots := later.statementRoots.trans earlier.statementRoots
  grows := earlier.grows.trans later.grows
  roots := by rw [later.roots, earlier.roots, List.append_assoc]
  statements root member := by
    rcases List.mem_append.mp member with old | new
    · obtain ⟨vertex, found, here⟩ := earlier.statements root old
      obtain ⟨last, lastFound, -, -, same⟩ := later.grows root vertex found
      exact ⟨last, lastFound, same.trans here⟩
    · exact later.statements root new

end Plants

/-- The listed roots are the roots of the graph, and each has the statement under which it is
listed. -/
structure Rooted
    (tree : Tree)
    (walk : Walk) : Prop where
  nodes : walk.tree.nodes = tree.nodes
  roots : walk.sources.graph.rootIds = walk.statementRoots.flatMap Prod.snd
  statements : ∀ {statement roots}, (statement, roots) ∈ walk.statementRoots -> ∀ root ∈ roots,
    ∃ vertex, walk.sources.graph.vertex? root = some vertex ∧ vertex.statement = statement

/-- A step that adds no root keeps the list. -/
theorem Rooted.keep
    {tree : Tree}
    {statement : NodeId}
    {before after : Walk}
    (rooted : before.Rooted tree)
    (plants : before.Plants statement [] after) :
    after.Rooted tree where
  nodes := plants.nodes.trans rooted.nodes
  roots := by rw [plants.roots, List.append_nil, rooted.roots, plants.statementRoots]
  statements {other roots} member root isRoot := by
    rw [plants.statementRoots] at member
    obtain ⟨vertex, found, here⟩ := rooted.statements member root isRoot
    obtain ⟨last, lastFound, -, -, same⟩ := plants.grows root vertex found
    exact ⟨last, lastFound, same.trans here⟩

/-- The roots of a statement may be listed once they are added. -/
theorem Rooted.list
    {tree : Tree}
    {statement : NodeId}
    {added : List VertexId}
    {before after : Walk}
    (rooted : before.Rooted tree)
    (plants : before.Plants statement added after) :
    Rooted tree { after with statementRoots := after.statementRoots ++ [(statement, added)] } where
  nodes := plants.nodes.trans rooted.nodes
  roots := by
    change after.sources.graph.rootIds = _
    rw [plants.roots, rooted.roots, plants.statementRoots, List.flatMap_append,
      List.flatMap_singleton]
  statements {other roots} member root isRoot := by
    rcases List.mem_append.mp member with old | new
    · rw [plants.statementRoots] at old
      obtain ⟨vertex, found, here⟩ := rooted.statements old root isRoot
      obtain ⟨last, lastFound, -, -, same⟩ := plants.grows root vertex found
      exact ⟨last, lastFound, same.trans here⟩
    · cases List.mem_singleton.mp new
      exact plants.statements root isRoot

end Walk

namespace Walking

variable {schema : Schema} {tree : Tree} {before after : Walk}

theorem plants_visitRoot
    {root statement : NodeId}
    {vertices : List VertexId}
    (nodes : before.tree.nodes = tree.nodes)
    (on : tree.DeclaredOn root statement)
    (done : visitRoot schema true root before = .ok vertices after) :
    before.Plants statement vertices after := by
  obtain ⟨⟨id, body, fetches, joins⟩, held, read, holds, last⟩ := visitRoot_eq_ok.mp done
  have quiet := quiet_of_holdAll holds
  rcases last with ⟨contrary, -, -⟩ | ⟨-, vertex, sources, built, rfl, rfl⟩
  · cases contrary
  obtain ⟨recordType, -, isRoot, -⟩ := Graphing.buildRoot_eq_ok.mp built
  obtain ⟨present, -⟩ := SourceTree.readFrom_mk (SourceTree.readFrom_of_ofNode read)
  obtain ⟨-, node, found, owner⟩ := on
  have sameId : id = root := SourceTree.id_of_ofNode read
  rw [sameId, Tree.node?_eq_of_nodes nodes, found] at present
  cases present
  have here : body.statement = statement := by simpa [Node.owner?, isRoot] using owner
  obtain ⟨grows, roots, rooted⟩ := Graphing.roots_buildRoot built
  rw [here] at rooted
  have planted : held.Plants statement [vertex] { held with sources := sources } :=
    ⟨rfl, rfl, grows, roots, by simpa using rooted⟩
  exact (Walk.Plants.of_quiet statement quiet).trans planted

theorem plants_visitRoots
    {roots : List NodeId}
    {statement : NodeId}
    {vertices : List (List VertexId)}
    (nodes : before.tree.nodes = tree.nodes)
    (on : ∀ root ∈ roots, tree.DeclaredOn root statement)
    (done : roots.mapM (visitRoot schema true) before = .ok vertices after) :
    before.Plants statement vertices.flatten after := by
  induction roots generalizing before vertices with
  | nil =>
      cases done
      exact .of_quiet statement (.refl _)
  | cons root roots inductionHypothesis =>
      rw [List.mapM_cons] at done
      obtain ⟨first, between, firstDone, remaining⟩ := Operation.bind_eq_ok.mp done
      obtain ⟨others, last, restDone, finished⟩ := Operation.bind_eq_ok.mp remaining
      cases finished
      have planted := plants_visitRoot nodes (on root List.mem_cons_self) firstDone
      exact planted.trans (inductionHypothesis (planted.nodes.trans nodes)
        (fun other member => on other (List.mem_cons_of_mem _ member)) restDone)

/-- A correlated source has the vertex of another one. -/
theorem plants_visitCorrelation
    {statement id correlated : NodeId}
    (done : visitCorrelation id correlated before = .ok () after) :
    before.Plants statement [] after := by
  obtain ⟨held, outer, vertex, holds, -, -, rfl⟩ := visitCorrelation_eq_ok.mp done
  have declared : held.Plants statement [] { held with
      sources := { held.sources with
        declared := held.sources.declared.insert correlated vertex } } :=
    ⟨rfl, rfl, .refl _, (List.append_nil _).symm, List.forall_mem_nil _⟩
  exact (Walk.Plants.of_quiet statement (quiet_of_hold holds)).trans declared

theorem plants_visitCorrelations
    {statement id : NodeId}
    {correlations : List NodeId}
    (done : correlations.forM (visitCorrelation id) before = .ok () after) :
    before.Plants statement [] after := by
  have lawful : (succeeding (Walk.Plants statement [])).Lawful :=
    succeeding_lawful (fun walk => .of_quiet statement (.refl walk)) Walk.Plants.trans
  exact (Obeys.forM lawful fun _ _ => obeys_succeeding plants_visitCorrelation).of_ok done

/-- Entering a statement lists the roots that it adds. -/
theorem rooted_visitSources
    {id : NodeId}
    {statement : Statement}
    (listed : tree.Listed)
    (rooted : before.Rooted tree)
    (found : before.tree.statement id = .ok statement)
    (done : visitSources schema id statement before = .ok () after) :
    after.Rooted tree := by
  obtain ⟨-, roots, built, correlated, rootsDone, correlationsDone, rfl⟩ :=
    visitSources_eq_ok.mp done
  cases first : isFirstVisit before id with
  | false =>
      rw [first] at rootsDone
      have lawful : (succeeding Walk.Quiet).Lawful :=
        succeeding_lawful Walk.Quiet.refl Walk.Quiet.trans
      have quiet : before.Quiet built :=
        (Obeys.mapM lawful fun _ _ => obeys_succeeding quiet_of_visitRoot).of_ok rootsDone
      rw [if_neg Bool.false_ne_true]
      exact rooted.keep ((Walk.Plants.of_quiet id quiet).trans
        (plants_visitCorrelations correlationsDone))
  | true =>
      rw [first] at rootsDone
      have foundHere : tree.node? id = some (.statement statement) := by
        rw [← Tree.statement_eq_ok.mp found, Tree.node?_eq_of_nodes rooted.nodes]
      have planted := plants_visitRoots rooted.nodes
        (fun root member => (listed id _ foundHere).declared member) rootsDone
      have plants := planted.trans (plants_visitCorrelations correlationsDone)
      rw [List.append_nil] at plants
      rw [if_pos rfl]
      exact rooted.list plants

/-- A walk ends with the roots of its graph listed. -/
theorem rooted_of_walkTree
    {owner : Owner}
    (listed : tree.Listed)
    (done : walkTree schema { tree := tree, guard := { owner := owner } } = .ok () after) :
    after.Rooted tree := by
  have preserved : Preserved schema fun before after => before.Rooted tree -> after.Rooted tree := {
    quiet := fun quiet rooted => rooted.keep (.of_quiet Tree.top quiet)
    trans := fun earlier later rooted => later (earlier rooted)
    sources := fun found done rooted => rooted_visitSources listed rooted found done }
  exact preserved.of_walkTree done ⟨rfl, rfl, fun member => by cases member⟩

end Walking
end QueryGraph
