import QueryGraph.Proofs.Graph.Recount
import QueryGraph.Proofs.Walk.Scope

/-!
# The history of a walk

The sources of a statement are built when it is entered for the first time. No source below
its roots was declared before, because every source is declared below one statement. So a walk
ends with a history that recounts the declared sources.
-/

namespace QueryGraph

namespace Walk

/-- A walk has a history that recounts the declared sources. These are below statements that
were entered, or that are being entered. -/
structure Recounts
    (tree : Tree)
    (opening : List NodeId)
    (walk : Walk) : Prop where
  nodes : walk.tree.nodes = tree.nodes
  history : ∃ history, walk.sources.Recounts tree history
  entered : ∀ {id top body}, id ∈ walk.sources.declared.keys -> tree.DeclaredBelow id top ->
    tree.node? top = some (.statement body) ->
      top ∈ walk.entered ∨ top ∈ opening

namespace Recounts

variable {tree : Tree} {opening : List NodeId} {before after : Walk}

theorem of_quiet
    (recounts : before.Recounts tree opening)
    (quiet : before.Quiet after) :
    after.Recounts tree opening where
  nodes := quiet.nodes.trans recounts.nodes
  history := by
    rw [quiet.sources]
    exact recounts.history
  entered known below found := by
    rw [quiet.sources] at known
    unfold Walk.entered
    rw [quiet.statementRoots]
    exact recounts.entered known below found

theorem mono
    {larger : List NodeId}
    (recounts : before.Recounts tree opening)
    (subset : opening ⊆ larger) :
    before.Recounts tree larger where
  nodes := recounts.nodes
  history := recounts.history
  entered known below found :=
    (recounts.entered known below found).imp_right fun member => subset member

end Recounts

/-- A step that keeps the history in agreement with what is declared. -/
def Keeps
    (tree : Tree)
    (opening : List NodeId)
    (before after : Walk) : Prop :=
  before.Recounts tree opening -> after.Recounts tree opening

end Walk

namespace Walking

variable {schema : Schema} {tree : Tree} {opening : List NodeId} {before after : Walk}

theorem keeps_lawful
    (tree : Tree)
    (opening : List NodeId) :
    (succeeding (Walk.Keeps tree opening)).Lawful :=
  succeeding_lawful (fun _ recounts => recounts) fun earlier later recounts =>
    later (earlier recounts)

/-- The sources below a root that were not declared yet are recounted, and nothing else is
declared. -/
theorem recounts_visitRoot
    {root statement : NodeId}
    {body : Statement}
    {vertices : List VertexId}
    (listed : tree.Listed)
    (recounts : before.Recounts tree opening)
    (on : tree.DeclaredOn root statement)
    (found : tree.node? statement = some (.statement body))
    (opened : statement ∈ opening)
    (fresh : ∀ key ∈ before.sources.declared.keys, ¬ tree.DeclaredBelow key root)
    (done : visitRoot schema true root before = .ok vertices after) :
    after.Recounts tree opening ∧ ∀ key ∈ after.sources.declared.keys,
      key ∈ before.sources.declared.keys ∨ tree.DeclaredBelow key root := by
  obtain ⟨source, held, read, holds, last⟩ := visitRoot_eq_ok.mp done
  rcases last with ⟨contrary, -, -⟩ | ⟨-, vertex, sources, built, -, rfl⟩
  · cases contrary
  have quiet := quiet_of_holdAll holds
  have readHere : source.ReadFrom tree ∧ source.id = root := by
    have nodes : tree.nodes = before.tree.nodes := recounts.nodes.symm
    have foundHere := (Tree.Matches.of_nodes nodes source.ids).sourceTree (List.Subset.refl _) read
    exact ⟨SourceTree.readFrom_of_ofNode foundHere, SourceTree.id_of_ofNode foundHere⟩
  obtain ⟨sourceRead, rfl⟩ := readHere
  have below : ∀ key ∈ sources.declared.keys,
      key ∈ before.sources.declared.keys ∨ tree.DeclaredBelow key source.id := by
    intro key known
    rcases (Graphing.mem_keys_buildRoot built key).mp known with old | ⟨inner, contains, rfl⟩
    · rw [quiet.sources] at old
      exact Or.inl old
    · exact Or.inr (contains.declaredBelow sourceRead listed)
  refine ⟨⟨quiet.nodes.trans recounts.nodes, ?_, ?_⟩, below⟩
  · obtain ⟨history, told⟩ := (recounts.of_quiet quiet).history
    refine Graphing.recounts_buildRoot listed told sourceRead ?_ built
    intro inner contains known
    rw [quiet.sources] at known
    exact fresh _ known (contains.declaredBelow sourceRead listed)
  · intro key top topBody known keyBelow topFound
    change top ∈ held.statementRoots.map Prod.fst ∨ _
    rw [quiet.statementRoots]
    rcases below key known with old | belowRoot
    · exact recounts.entered old keyBelow topFound
    · have same := keyBelow.statement_eq (belowRoot.tail on) topFound found
      rw [same]
      exact Or.inr opened

/-- Different roots of a statement have different sources below them, so all of them are
recounted. -/
theorem recounts_visitRoots
    {roots : List NodeId}
    {statement : NodeId}
    {body : Statement}
    {vertices : List (List VertexId)}
    (listed : tree.Listed)
    (recounts : before.Recounts tree opening)
    (on : ∀ root ∈ roots, tree.DeclaredOn root statement)
    (nodup : roots.Nodup)
    (found : tree.node? statement = some (.statement body))
    (opened : statement ∈ opening)
    (fresh : ∀ root ∈ roots, ∀ key ∈ before.sources.declared.keys,
      ¬ tree.DeclaredBelow key root)
    (done : roots.mapM (visitRoot schema true) before = .ok vertices after) :
    after.Recounts tree opening := by
  induction roots generalizing before vertices with
  | nil =>
      cases done
      exact recounts
  | cons root roots inductionHypothesis =>
      rw [List.mapM_cons] at done
      obtain ⟨first, between, firstDone, remaining⟩ := Operation.bind_eq_ok.mp done
      obtain ⟨others, last, restDone, finished⟩ := Operation.bind_eq_ok.mp remaining
      cases finished
      obtain ⟨recountsBetween, below⟩ := recounts_visitRoot listed recounts
        (on root List.mem_cons_self) found opened (fresh root List.mem_cons_self) firstDone
      obtain ⟨new, nodupRest⟩ := List.nodup_cons.mp nodup
      refine inductionHypothesis recountsBetween
        (fun other member => on other (List.mem_cons_of_mem _ member)) nodupRest ?_ restDone
      intro other member key known belowOther
      rcases below key known with old | belowRoot
      · exact fresh other (List.mem_cons_of_mem _ member) key old belowOther
      · have same := belowRoot.sibling_eq belowOther (on root List.mem_cons_self)
          (on other (List.mem_cons_of_mem _ member))
        rw [same] at new
        exact new member

/-- A correlated source gets the vertex of the source that it stands for. -/
theorem keeps_visitCorrelation
    {statement correlated : NodeId}
    (done : visitCorrelation statement correlated before = .ok () after) :
    Walk.Keeps tree opening before after := by
  intro recounts
  obtain ⟨held, outer, vertex, holds, resolved, declared, rfl⟩ := visitCorrelation_eq_ok.mp done
  have recountsHeld := recounts.of_quiet (quiet_of_hold holds)
  have stands : tree.resolveCorrelation correlated = .ok outer :=
    (Tree.Matches.of_nodes recountsHeld.nodes.symm []).evolves.resolveCorrelation resolved
  refine ⟨recountsHeld.nodes, ?_, fun {id top body} known below found => ?_⟩
  · obtain ⟨history, told⟩ := recountsHeld.history
    exact ⟨history, told.correlate stands declared⟩
  · rcases DeclarationMap.mem_keys_insert.mp known with rfl | old
    · obtain ⟨source, present⟩ := Tree.exists_source_of_resolveCorrelation stands
      cases original : source.isCorrelated with
      | true =>
          have same := below.eq_of_owner? present (Node.owner?_of_isCorrelated original)
          rw [same, found] at present
          cases present
      | false =>
          rw [Tree.resolveCorrelation_of_original present original] at stands
          cases stands
          exact recountsHeld.entered (DeclarationMap.mem_keys_of_find? declared) below found
    · exact recountsHeld.entered old below found

/-- A root of a statement that was entered before is only held. -/
theorem quiet_of_visitRoot
    {root : NodeId}
    {vertices : List VertexId}
    (done : visitRoot schema false root before = .ok vertices after) :
    before.Quiet after := by
  obtain ⟨source, held, -, holds, ⟨-, -, rfl⟩ | ⟨contrary, -⟩⟩ := visitRoot_eq_ok.mp done
  · exact quiet_of_holdAll holds
  · cases contrary

/-- Entering a statement keeps the history in agreement with what is declared. -/
theorem keeps_visitSources
    {id : NodeId}
    {statement : Statement}
    (listed : tree.Listed)
    (found : before.tree.statement id = .ok statement)
    (done : visitSources schema id statement before = .ok () after) :
    Walk.Keeps tree [] before after := by
  intro recounts
  obtain ⟨-, roots, built, correlated, rootsDone, correlationsDone, rfl⟩ :=
    visitSources_eq_ok.mp done
  have foundHere : tree.node? id = some (.statement statement) := by
    rw [← Tree.statement_eq_ok.mp found, Tree.node?_eq_of_nodes recounts.nodes]
  have correlations : ∀ opening, Walk.Keeps tree opening built correlated := fun opening =>
    (Obeys.forM (keeps_lawful tree opening) fun source _ =>
      obeys_succeeding keeps_visitCorrelation).of_ok correlationsDone
  cases first : isFirstVisit before id with
  | false =>
      rw [first] at rootsDone
      have held : Walk.Keeps tree [] before built :=
        (Obeys.mapM (keeps_lawful tree []) fun root _ => obeys_succeeding fun done recounts =>
          Walk.Recounts.of_quiet recounts (quiet_of_visitRoot done)).of_ok rootsDone
      rw [if_neg Bool.false_ne_true]
      exact correlations [] (held recounts)
  | true =>
      rw [first] at rootsDone
      have lists := listed id _ foundHere
      have new : id ∉ before.entered := by
        intro member
        rw [isFirstVisit_eq_false.mpr member] at first
        cases first
      have fresh : ∀ root ∈ statement.roots, ∀ key ∈ before.sources.declared.keys,
          ¬ tree.DeclaredBelow key root := by
        intro root member key known below
        rcases recounts.entered known (below.tail (lists.declared member)) foundHere with
          entered | contrary
        · exact new entered
        · cases contrary
      have builtRecounts : built.Recounts tree [id] :=
        recounts_visitRoots listed (recounts.mono (List.nil_subset [id]))
          (fun root member => lists.declared member) lists.nodup foundHere List.mem_cons_self
          fresh rootsDone
      obtain ⟨nodes, history, entered⟩ := correlations [id] builtRecounts
      rw [if_pos rfl]
      refine ⟨nodes, history, fun {key top body} known below topFound => Or.inl ?_⟩
      have member := entered known below topFound
      rwa [Walk.entered, List.map_append, List.mem_append]

theorem keeps_preserved
    (listed : tree.Listed) :
    Preserved schema (Walk.Keeps tree []) where
  quiet quiet recounts := recounts.of_quiet quiet
  trans earlier later := later ∘ earlier
  sources found done := keeps_visitSources listed found done

/-- A walk ends with a history that recounts the declared sources. -/
theorem recounts_of_walkTree
    {owner : Owner}
    (listed : tree.Listed)
    (done : walkTree schema { tree := tree, guard := { owner := owner } } = .ok () after) :
    ∃ history, after.sources.Recounts tree history := by
  refine ((keeps_preserved listed).of_walkTree done ⟨rfl, ?_, ?_⟩).history
  · exact ⟨[], GraphState.recounts_empty tree⟩
  · intro id top body known
    cases known

end Walking
end QueryGraph
