import QueryGraph.Proofs.Tree.References
import QueryGraph.Proofs.Walk.History

/-!
# The listed roots of a statement

Nothing but the visit of a root gives the root a vertex, and it does so once. So the vertices
listed under a statement are those of its roots, in the order in which these were declared.
-/

namespace QueryGraph

namespace Graphing

variable {schema : Schema} {tree : Tree} {before after : GraphState} {id statement : NodeId}

/-- Joins give no root a vertex. -/
theorem find?_buildJoins
    {parent : VertexId}
    {joins : List SourceTree}
    (read : ∀ join ∈ joins, join.ReadFrom tree)
    (isRoot : tree.HasRoot statement id)
    (done : buildJoins schema parent joins before = .ok () after) :
    after.declared.find? id = before.declared.find? id := by
  induction parent, joins using buildJoins.induct generalizing before after with
  | case1 parent =>
      rw [buildJoins] at done
      cases done
      rfl
  | case2 parent node source fetches joins rest _ _ _ _ _ isJoin joinsHypothesis restHypothesis =>
      obtain ⟨_, _, _, _, _, target, resolution, graph, below, -, -, -, inner, last⟩ :=
        buildJoins_cons_eq_ok.mp done
      obtain ⟨found, -, innerRead, -⟩ := SourceTree.readFrom_mk (read _ List.mem_cons_self)
      have differs : id ≠ node := by
        rintro rfl
        obtain ⟨body, recordType, again, kind, -⟩ := isRoot
        rw [found] at again
        cases again
        rw [isJoin] at kind
        cases kind
      rw [restHypothesis (fun join member => read join (List.mem_cons_of_mem _ member)) last,
        joinsHypothesis resolution (fun join member => (innerRead join member).1) inner,
        DeclarationMap.find?_insert, if_neg differs]
  | case3 parent node source fetches joins rest notJoin =>
      obtain ⟨above, field, direction, mode, on, _, _, _, _, isJoin, -⟩ :=
        buildJoins_cons_eq_ok.mp done
      exact absurd isJoin (notJoin above field direction mode on)

/-- A root that is built has its vertex, and all other roots keep theirs. -/
theorem find?_buildRoot
    {vertex : VertexId}
    {source : SourceTree}
    (read : source.ReadFrom tree)
    (isRoot : tree.HasRoot statement id)
    (done : buildRoot schema source before = .ok vertex after) :
    after.declared.find? id =
      if id = source.id then some vertex else before.declared.find? id := by
  obtain ⟨root, body, fetches, joins⟩ := source
  obtain ⟨recordType, type, -, -, -, inner⟩ := buildRoot_eq_ok.mp done
  obtain ⟨-, -, joinsRead, -⟩ := SourceTree.readFrom_mk read
  rw [find?_buildJoins (fun join member => (joinsRead join member).1) isRoot inner,
    DeclarationMap.find?_insert]
  rfl

end Graphing

namespace Walk

/-- Every statement that was entered is listed with the vertices of its roots, in the order in
which the roots were declared. -/
structure Lists
    (tree : Tree)
    (walk : Walk) : Prop where
  nodes : walk.tree.nodes = tree.nodes
  roots : ∀ {statement roots}, (statement, roots) ∈ walk.statementRoots -> ∃ body,
    tree.node? statement = some (.statement body) ∧
      body.roots.map walk.sources.declared.find? = roots.map some

/-- A step that gives no root of a tree another vertex, save some. -/
structure Settles
    (tree : Tree)
    (except : List NodeId)
    (before after : Walk) : Prop where
  nodes : after.tree.nodes = before.tree.nodes
  statementRoots : after.statementRoots = before.statementRoots
  find? : ∀ {statement id}, tree.HasRoot statement id -> id ∉ except ->
    after.sources.declared.find? id = before.sources.declared.find? id

namespace Settles

variable {tree : Tree} {except : List NodeId}

theorem of_quiet
    {before after : Walk}
    (quiet : before.Quiet after) :
    before.Settles tree except after where
  nodes := quiet.nodes
  statementRoots := quiet.statementRoots
  find? _ _ := by rw [quiet.sources]

theorem trans
    {first second third : Walk}
    (earlier : first.Settles tree except second)
    (later : second.Settles tree except third) :
    first.Settles tree except third where
  nodes := later.nodes.trans earlier.nodes
  statementRoots := later.statementRoots.trans earlier.statementRoots
  find? isRoot other := (later.find? isRoot other).trans (earlier.find? isRoot other)

theorem mono
    {before after : Walk}
    {larger : List NodeId}
    (settles : before.Settles tree except after)
    (subset : except ⊆ larger) :
    before.Settles tree larger after where
  nodes := settles.nodes
  statementRoots := settles.statementRoots
  find? isRoot other := settles.find? isRoot fun member => other (subset member)

end Settles

/-- What is listed already stays listed under a step that settles the roots of a new statement. -/
theorem Lists.settle
    {tree : Tree}
    {except : List NodeId}
    {before after : Walk}
    (lists : before.Lists tree)
    (referring : tree.Referring)
    (settles : before.Settles tree except after)
    (apart : ∀ statement ∈ before.entered, ∀ id ∈ except, ¬ tree.HasRoot statement id) :
    after.Lists tree where
  nodes := settles.nodes.trans lists.nodes
  roots {statement roots} member := by
    rw [settles.statementRoots] at member
    obtain ⟨body, found, same⟩ := lists.roots member
    refine ⟨body, found, ?_⟩
    rw [← same]
    refine List.map_congr_left fun root isListed => ?_
    have isRoot := (referring statement _ found).roots root isListed
    have entered : statement ∈ before.entered := List.mem_map_of_mem member
    exact settles.find? isRoot fun excepted => apart statement entered root excepted isRoot

end Walk

namespace Walking

variable {schema : Schema} {tree : Tree} {before after : Walk} {statement : NodeId}

/-- A root that is visited for the first time has its vertex. -/
theorem settles_visitRoot
    {root : NodeId}
    {vertices : List VertexId}
    (nodes : before.tree.nodes = tree.nodes)
    (isRoot : tree.HasRoot statement root)
    (done : visitRoot schema true root before = .ok vertices after) :
    before.Settles tree [root] after ∧
      ∃ vertex, vertices = [vertex] ∧ after.sources.declared.find? root = some vertex := by
  obtain ⟨source, held, read, holds, last⟩ := visitRoot_eq_ok.mp done
  rcases last with ⟨contrary, -, -⟩ | ⟨-, vertex, sources, built, rfl, rfl⟩
  · cases contrary
  have quiet := quiet_of_holdAll holds
  have foundHere := (Tree.Matches.of_nodes nodes.symm source.ids).sourceTree
    (List.Subset.refl _) read
  have readFrom := SourceTree.readFrom_of_ofNode foundHere
  have sameId : source.id = root := SourceTree.id_of_ofNode foundHere
  refine ⟨⟨quiet.nodes, quiet.statementRoots, fun {other id} isOther differs => ?_⟩,
    vertex, rfl, ?_⟩
  · have apart : id ≠ source.id := by
      rw [sameId]
      exact fun same => differs (List.mem_singleton.mpr same)
    rw [Graphing.find?_buildRoot readFrom isOther built, if_neg apart, quiet.sources]
  · rw [Graphing.find?_buildRoot readFrom isRoot built, if_pos sameId.symm]

theorem settles_visitRoots
    {roots : List NodeId}
    {vertices : List (List VertexId)}
    (nodes : before.tree.nodes = tree.nodes)
    (areRoots : ∀ root ∈ roots, tree.HasRoot statement root)
    (nodup : roots.Nodup)
    (done : roots.mapM (visitRoot schema true) before = .ok vertices after) :
    before.Settles tree roots after ∧
      roots.map after.sources.declared.find? = vertices.flatten.map some := by
  induction roots generalizing before vertices with
  | nil =>
      cases done
      exact ⟨.of_quiet (.refl _), rfl⟩
  | cons root roots inductionHypothesis =>
      rw [List.mapM_cons] at done
      obtain ⟨first, between, firstDone, remaining⟩ := Operation.bind_eq_ok.mp done
      obtain ⟨others, last, restDone, finished⟩ := Operation.bind_eq_ok.mp remaining
      cases finished
      obtain ⟨new, nodupRest⟩ := List.nodup_cons.mp nodup
      have isRoot := areRoots root List.mem_cons_self
      obtain ⟨settles, vertex, rfl, given⟩ := settles_visitRoot nodes isRoot firstDone
      obtain ⟨settlesRest, givenRest⟩ := inductionHypothesis (settles.nodes.trans nodes)
        (fun other member => areRoots other (List.mem_cons_of_mem _ member)) nodupRest restDone
      constructor
      · exact (settles.mono (List.cons_subset.mpr ⟨List.mem_cons_self, List.nil_subset _⟩)).trans
          (settlesRest.mono (List.subset_cons_self _ _))
      · rw [List.map_cons, givenRest, settlesRest.find? isRoot new, given]
        rfl

theorem settles_visitCorrelation
    {except : List NodeId}
    {id correlated : NodeId}
    (isCorrelation : tree.HasCorrelation statement correlated)
    (done : visitCorrelation id correlated before = .ok () after) :
    before.Settles tree except after := by
  obtain ⟨held, outer, vertex, holds, -, -, rfl⟩ := visitCorrelation_eq_ok.mp done
  refine (Walk.Settles.of_quiet (quiet_of_hold holds)).trans ⟨rfl, rfl, fun {_ id} isRoot _ => ?_⟩
  have differs : id ≠ correlated := by
    rintro rfl
    obtain ⟨body, recordType, found, kind, -⟩ := isRoot
    obtain ⟨other, _, again, otherKind, -⟩ := isCorrelation
    rw [found] at again
    cases again
    rw [kind] at otherKind
    cases otherKind
  rw [DeclarationMap.find?_insert, if_neg differs]

/-- Entering the sources of a statement lists its roots. -/
theorem lists_visitSources
    {id : NodeId}
    {body : Statement}
    (listed : tree.Listed)
    (referring : tree.Referring)
    (lists : before.Lists tree)
    (found : before.tree.statement id = .ok body)
    (done : visitSources schema id body before = .ok () after) :
    after.Lists tree := by
  obtain ⟨-, roots, built, correlated, rootsDone, correlationsDone, rfl⟩ :=
    visitSources_eq_ok.mp done
  have foundHere : tree.node? id = some (.statement body) := by
    rw [← Tree.statement_eq_ok.mp found, Tree.node?_eq_of_nodes lists.nodes]
  have refers : tree.StatementRefers id body := referring id _ foundHere
  have lawful (except : List NodeId) : (succeeding (Walk.Settles tree except)).Lawful :=
    succeeding_lawful (fun walk => .of_quiet (.refl walk)) Walk.Settles.trans
  have correlations : ∀ except, built.Settles tree except correlated := fun except =>
    (Obeys.forM (lawful except) fun source member =>
      obeys_succeeding (settles_visitCorrelation (refers.correlations source member))).of_ok
        correlationsDone
  cases first : isFirstVisit before id with
  | false =>
      rw [first] at rootsDone
      have held : before.Settles tree [] built :=
        (Obeys.mapM (lawful []) fun root _ => obeys_succeeding fun done =>
          .of_quiet (quiet_of_visitRoot done)).of_ok rootsDone
      rw [if_neg Bool.false_ne_true]
      exact lists.settle referring (held.trans (correlations []))
        fun _ _ _ => List.not_mem_nil.elim
  | true =>
      rw [first] at rootsDone
      obtain ⟨settles, given⟩ := settles_visitRoots lists.nodes refers.roots
        (listed id _ foundHere).nodup rootsDone
      have new : id ∉ before.entered := by
        intro member
        rw [isFirstVisit_eq_false.mpr member] at first
        cases first
      have kept : correlated.Lists tree := by
        refine lists.settle referring (settles.trans (correlations body.roots)) ?_
        intro other entered root member isRoot
        obtain ⟨source, _, present, -, here⟩ := isRoot
        obtain ⟨again, _, presentAgain, -, hereAgain⟩ := refers.roots root member
        rw [present] at presentAgain
        cases presentAgain
        rw [here] at hereAgain
        exact new (hereAgain ▸ entered)
      rw [if_pos rfl]
      refine ⟨kept.nodes, fun {other vertices} member => ?_⟩
      rcases List.mem_append.mp member with old | last
      · exact kept.roots old
      · cases List.mem_singleton.mp last
        refine ⟨body, foundHere, ?_⟩
        rw [← given]
        exact List.map_congr_left fun root isListed =>
          (correlations []).find? (refers.roots root isListed) (List.not_mem_nil)

/-- A walk ends with the roots of every entered statement listed in the order of declaration. -/
theorem lists_of_walkTree
    {owner : Owner}
    (listed : tree.Listed)
    (referring : tree.Referring)
    (done : walkTree schema { tree := tree, guard := { owner := owner } } = .ok () after) :
    after.Lists tree := by
  have preserved : Preserved schema fun before after => before.Lists tree -> after.Lists tree := {
    quiet := fun quiet lists =>
      lists.settle referring (.of_quiet quiet) fun _ _ _ => List.not_mem_nil.elim
    trans := fun earlier later lists => later (earlier lists)
    sources := fun found done lists => lists_visitSources listed referring lists found done }
  exact preserved.of_walkTree done ⟨rfl, fun member => by cases member⟩

end Walking
end QueryGraph
