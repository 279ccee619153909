import QueryGraph.Proofs.Graph.Description
import QueryGraph.Proofs.Walk.Quiet

/-!
# What a walk has declared

The vertices of the declared sources agree with what the tree says about the sources, and
every source of a statement that was entered is declared.
-/

namespace QueryGraph

/-- A source inside one that is inside another one. -/
theorem SourceTree.Contains.trans
    {outer middle inner : SourceTree}
    (first : outer.Contains middle)
    (second : middle.Contains inner) :
    outer.Contains inner := by
  induction first with
  | here tree => exact second
  | inside member found inductionHypothesis => exact .inside member (inductionHypothesis second)

/-- A source that stands for no other one is found below a root that its statement lists. -/
theorem Tree.Placed.below_root
    {tree : Tree}
    {id : NodeId}
    {body : Source}
    (placed : tree.Placed)
    (found : tree.node? id = some (.source body))
    (original : body.isCorrelated = false) :
    ∃ statement root, tree.node? body.statement = some (.statement statement) ∧
      root ∈ statement.roots ∧ ∀ source, tree.sourceTree root = .ok source ->
        ∃ inner, source.Contains inner ∧ inner.id = id := by
  obtain ⟨index, indexEq⟩ : ∃ index, id.index = index := ⟨_, rfl⟩
  -- A join hangs off an older source, so the induction is on the number of the source.
  induction index using Nat.strongRecOn generalizing id body with
  | ind index inductionHypothesis =>
      have places := (placed id _ found).1
      cases kind : body.kind with
      | root recordType =>
          rw [kind] at places
          obtain ⟨statement, statementFound, member⟩ := places
          refine ⟨statement, id, statementFound, member, fun source read => ?_⟩
          exact ⟨source, .here source, SourceTree.id_of_ofNode read⟩
      | correlated outer => simp [Source.isCorrelated, kind] at original
      | join parent field direction mode on =>
          rw [kind] at places
          obtain ⟨older, above, aboveFound, aboveOriginal, sameStatement, listed⟩ := places
          obtain ⟨statement, root, statementFound, member, below⟩ :=
            inductionHypothesis parent.index (by omega) aboveFound aboveOriginal rfl
          rw [sameStatement] at statementFound
          refine ⟨statement, root, statementFound, member, fun source read => ?_⟩
          obtain ⟨⟨node, aboveBody, fetches, joins⟩, contains, same⟩ := below source read
          change node = parent at same
          subst same
          obtain ⟨again, -, -, joinRead⟩ :=
            SourceTree.readFrom_mk (contains.readFrom (SourceTree.readFrom_of_ofNode read))
          rw [aboveFound] at again
          cases again
          obtain ⟨join, joinMember, joinId⟩ := joinRead id listed
          exact ⟨join, contains.trans (.inside joinMember (.here join)), joinId⟩

namespace Walk

/-- The statements entered so far. -/
def entered (walk : Walk) : List NodeId := walk.statementRoots.map Prod.fst

/-- On a tree, a walk has declared every source of the statements that it entered, each in
agreement with what the tree says about it. -/
structure Declares
    (schema : Schema)
    (tree : Tree)
    (walk : Walk) : Prop where
  nodes : walk.tree.nodes = tree.nodes
  sound : walk.sources.Sound schema tree
  complete : ∀ {id body}, tree.node? id = some (.source body) ->
    body.statement ∈ walk.entered -> id ∈ walk.sources.declared.keys

/-- A step that adds to what is declared. -/
structure Adds
    (schema : Schema)
    (tree : Tree)
    (before after : Walk) : Prop where
  entered : before.entered ⊆ after.entered
  keys : before.sources.declared.keys ⊆ after.sources.declared.keys
  declares : before.Declares schema tree -> after.Declares schema tree

namespace Adds

variable {schema : Schema} {tree : Tree}

theorem of_quiet
    {before after : Walk}
    (quiet : before.Quiet after) :
    before.Adds schema tree after where
  entered := by
    unfold Walk.entered
    rw [quiet.statementRoots]
    exact List.Subset.refl _
  keys := by
    rw [quiet.sources]
    exact List.Subset.refl _
  declares declares := by
    refine ⟨quiet.nodes.trans declares.nodes, ?_, fun found member => ?_⟩
    · rw [quiet.sources]
      exact declares.sound
    · unfold Walk.entered at member
      rw [quiet.statementRoots] at member
      rw [quiet.sources]
      exact declares.complete found member

theorem trans
    {first second third : Walk}
    (earlier : first.Adds schema tree second)
    (later : second.Adds schema tree third) :
    first.Adds schema tree third where
  entered := List.Subset.trans earlier.entered later.entered
  keys := List.Subset.trans earlier.keys later.keys
  declares declares := later.declares (earlier.declares declares)

/-- A step that only extends the join graph and the declarations, and keeps the agreement. -/
theorem of_sources
    {walk : Walk}
    {sources : GraphState}
    (keys : walk.sources.declared.keys ⊆ sources.declared.keys)
    (sound : walk.Declares schema tree -> sources.Sound schema tree) :
    walk.Adds schema tree { walk with sources := sources } where
  entered := List.Subset.refl _
  keys := keys
  declares declares :=
    ⟨declares.nodes, sound declares, fun found member => keys (declares.complete found member)⟩

end Adds
end Walk

namespace Walking

variable {α β : Type} {schema : Schema} {tree : Tree} {before after : Walk}

theorem adds_lawful
    (schema : Schema)
    (tree : Tree) :
    (succeeding (Walk.Adds schema tree)).Lawful :=
  succeeding_lawful (fun walk => .of_quiet (.refl walk)) Walk.Adds.trans

/-- A root is built with everything below it, or the step declares nothing. -/
theorem adds_visitRoot
    {isFirst : Bool}
    {root : NodeId}
    {vertices : List VertexId}
    (placed : tree.Placed)
    (done : visitRoot schema isFirst root before = .ok vertices after) :
    before.Adds schema tree after := by
  obtain ⟨source, held, read, holds, last⟩ := visitRoot_eq_ok.mp done
  have quiet := quiet_of_holdAll holds
  rcases last with ⟨-, -, rfl⟩ | ⟨-, vertex, sources, built, -, rfl⟩
  · exact .of_quiet quiet
  have declared := Graphing.mem_keys_buildRoot built
  refine (Walk.Adds.of_quiet quiet).trans (.of_sources ?_ fun declares => ?_)
  · exact fun id member => (declared id).mpr (Or.inl member)
  · have nodes : tree.nodes = before.tree.nodes := by rw [← declares.nodes, quiet.nodes]
    have readHere : source.ReadFrom tree := by
      have found := (Tree.Matches.of_nodes nodes source.ids).sourceTree (List.Subset.refl _) read
      exact SourceTree.readFrom_of_ofNode found
    exact (Graphing.sound_buildRoot placed declares.sound readHere built).2

/-- On the first visit of a statement everything below its roots is declared. -/
theorem declared_of_visitRoot
    {root : NodeId}
    {vertices : List VertexId}
    (nodes : before.tree.nodes = tree.nodes)
    (done : visitRoot schema true root before = .ok vertices after) :
    ∃ source, tree.sourceTree root = .ok source ∧
      ∀ inner, source.Contains inner -> inner.id ∈ after.sources.declared.keys := by
  obtain ⟨source, held, read, -, last⟩ := visitRoot_eq_ok.mp done
  rcases last with ⟨contrary, -, -⟩ | ⟨-, vertex, sources, built, -, rfl⟩
  · cases contrary
  · refine ⟨source, ?_, fun inner contains => ?_⟩
    · exact (Tree.Matches.of_nodes nodes.symm source.ids).sourceTree (List.Subset.refl _) read
    · exact (Graphing.mem_keys_buildRoot built _).mpr (Or.inr ⟨inner, contains, rfl⟩)

theorem adds_visitCorrelation
    {statement correlated : NodeId}
    (done : visitCorrelation statement correlated before = .ok () after) :
    before.Adds schema tree after := by
  obtain ⟨held, outer, vertex, holds, resolved, declared, rfl⟩ := visitCorrelation_eq_ok.mp done
  refine (Walk.Adds.of_quiet (quiet_of_hold holds)).trans (.of_sources ?_ fun declares => ?_)
  · exact fun id member => DeclarationMap.mem_keys_insert.mpr (Or.inr member)
  · have resolvedHere : tree.resolveCorrelation correlated = .ok outer :=
      (Tree.Matches.of_nodes declares.nodes.symm []).evolves.resolveCorrelation resolved
    obtain ⟨found, present, described⟩ := declares.sound.described declared
    exact declares.sound.declare present (described.of_resolveFrom resolvedHere)

theorem declared_of_visitCorrelation
    {statement correlated : NodeId}
    (done : visitCorrelation statement correlated before = .ok () after) :
    correlated ∈ after.sources.declared.keys := by
  obtain ⟨held, outer, vertex, -, -, -, rfl⟩ := visitCorrelation_eq_ok.mp done
  exact DeclarationMap.mem_keys_insert.mpr (Or.inl rfl)

/-- What happened to a member of a list happened on the way from the start to the end. -/
theorem exists_step_of_forM
    {relation : Walk -> Walk -> Prop}
    {action : α -> Walking PUnit}
    {items : List α}
    {item : α}
    (lawful : (succeeding relation).Lawful)
    (obeys : ∀ item, Obeys (succeeding relation) (action item))
    (done : items.forM action before = .ok () after)
    (member : item ∈ items) :
    ∃ start next, relation before start ∧ action item start = .ok () next ∧
      relation next after := by
  induction items generalizing before with
  | nil => cases member
  | cons first rest inductionHypothesis =>
      obtain ⟨between, firstDone, restDone⟩ := Operation.forM_cons_eq_ok.mp done
      rcases List.mem_cons.mp member with rfl | later
      · exact ⟨before, between, lawful.done_refl before, firstDone,
          (Obeys.forM lawful fun next _ => obeys next).of_ok restDone⟩
      · obtain ⟨start, next, reached, step, left⟩ := inductionHypothesis restDone later
        exact ⟨start, next, lawful.done_trans ((obeys first).of_ok firstDone) reached, step, left⟩

theorem exists_step_of_mapM
    {relation : Walk -> Walk -> Prop}
    {action : α -> Walking β}
    {items : List α}
    {values : List β}
    {item : α}
    (lawful : (succeeding relation).Lawful)
    (obeys : ∀ item, Obeys (succeeding relation) (action item))
    (done : items.mapM action before = .ok values after)
    (member : item ∈ items) :
    ∃ start value next, relation before start ∧ action item start = .ok value next ∧
      relation next after := by
  induction items generalizing before values with
  | nil => cases member
  | cons first rest inductionHypothesis =>
      rw [List.mapM_cons] at done
      obtain ⟨value, between, firstDone, remaining⟩ := Operation.bind_eq_ok.mp done
      obtain ⟨others, last, restDone, finished⟩ := Operation.bind_eq_ok.mp remaining
      cases finished
      rcases List.mem_cons.mp member with rfl | later
      · exact ⟨before, value, between, lawful.done_refl before, firstDone,
          (Obeys.mapM lawful fun next _ => obeys next).of_ok restDone⟩
      · obtain ⟨start, found, next, reached, step, left⟩ := inductionHypothesis restDone later
        exact ⟨start, found, next, lawful.done_trans ((obeys first).of_ok firstDone) reached,
          step, left⟩

/-- When the roots of a statement are built and its correlations resolved, every source of
the statement is declared. -/
theorem declared_of_visits
    {id source : NodeId}
    {statement : Statement}
    {body : Source}
    {built : Walk}
    {roots : List (List VertexId)}
    (placed : tree.Placed)
    (declares : before.Declares schema tree)
    (found : tree.node? id = some (.statement statement))
    (rootsDone : statement.roots.mapM (visitRoot schema true) before = .ok roots built)
    (correlationsDone : statement.correlations.forM (visitCorrelation id) built = .ok () after)
    (present : tree.node? source = some (.source body))
    (here : body.statement = id) :
    source ∈ after.sources.declared.keys := by
  have lawful := adds_lawful schema tree
  have correlationObeys : ∀ other, Obeys (succeeding (Walk.Adds schema tree))
      (visitCorrelation id other) := fun other => obeys_succeeding adds_visitCorrelation
  cases original : body.isCorrelated with
  | true =>
      have places := (placed source _ present).1
      obtain ⟨outer, isCorrelated⟩ : ∃ outer, body.kind = .correlated outer := by
        unfold Source.isCorrelated at original
        cases kind : body.kind <;> simp_all
      rw [isCorrelated, here] at places
      obtain ⟨-, listing, around, above, listingFound, listed, -⟩ := places
      rw [found] at listingFound
      cases listingFound
      obtain ⟨start, next, -, visited, later⟩ :=
        exists_step_of_forM lawful correlationObeys correlationsDone listed
      exact later.keys (declared_of_visitCorrelation visited)
  | false =>
      obtain ⟨listing, root, listingFound, listed, below⟩ := placed.below_root present original
      rw [here, found] at listingFound
      cases listingFound
      obtain ⟨start, vertices, next, earlier, visited, later⟩ := exists_step_of_mapM lawful
        (fun root => obeys_succeeding (adds_visitRoot placed)) rootsDone listed
      obtain ⟨read, readFound, declared⟩ :=
        declared_of_visitRoot (earlier.declares declares).nodes visited
      obtain ⟨inner, contains, same⟩ := below read readFound
      have addsCorrelations : built.Adds schema tree after :=
        (Obeys.forM lawful fun other _ => correlationObeys other).of_ok correlationsDone
      rw [← same]
      exact (later.trans addsCorrelations).keys (declared inner contains)

/-- Entering the sources of a statement declares every one of them. -/
theorem adds_visitSources
    {id : NodeId}
    {statement : Statement}
    (placed : tree.Placed)
    (found : before.tree.statement id = .ok statement)
    (done : visitSources schema id statement before = .ok () after) :
    before.Adds schema tree after := by
  obtain ⟨-, roots, built, correlated, rootsDone, correlationsDone, rfl⟩ :=
    visitSources_eq_ok.mp done
  have lawful := adds_lawful schema tree
  have addsRoots : before.Adds schema tree built :=
    (Obeys.mapM lawful fun root _ => obeys_succeeding (adds_visitRoot placed)).of_ok rootsDone
  have addsCorrelations : built.Adds schema tree correlated :=
    (Obeys.forM lawful fun source _ =>
      obeys_succeeding adds_visitCorrelation).of_ok correlationsDone
  have adds := addsRoots.trans addsCorrelations
  cases first : isFirstVisit before id with
  | false =>
      rw [if_neg Bool.false_ne_true]
      exact adds
  | true =>
      rw [if_pos rfl]
      have entered : Walk.entered { correlated with
          statementRoots := correlated.statementRoots ++ [(id, roots.flatten)] } =
            correlated.entered ++ [id] := by
        simp [Walk.entered]
      refine ⟨?_, adds.keys, fun declares => ?_⟩
      · rw [entered]
        exact List.subset_append_of_subset_left _ adds.entered
      · have later := adds.declares declares
        refine ⟨later.nodes, later.sound, fun {source body} present member => ?_⟩
        rw [entered] at member
        rcases List.mem_append.mp member with old | new
        · exact later.complete present old
        · have foundHere : tree.node? id = some (.statement statement) := by
            rw [← Tree.statement_eq_ok.mp found, Tree.node?_eq_of_nodes declares.nodes]
          rw [first] at rootsDone
          have declared : source ∈ correlated.sources.declared.keys :=
            declared_of_visits placed declares foundHere rootsDone correlationsDone present
              (List.mem_singleton.mp new)
          exact declared

theorem adds_preserved
    (placed : tree.Placed) :
    Preserved schema (Walk.Adds schema tree) where
  quiet := .of_quiet
  trans := Walk.Adds.trans
  sources found done := adds_visitSources placed found done

/-- When a walk ends, every source of an entered statement is declared, in agreement with the
tree. -/
theorem declares_of_walkTree
    {owner : Owner}
    (placed : tree.Placed)
    (done : walkTree schema { tree := tree, guard := { owner := owner } } = .ok () after) :
    after.Declares schema tree := by
  refine ((adds_preserved placed).of_walkTree done).declares ⟨rfl, ⟨?_, ?_⟩, ?_⟩
  · intro id vertex found
    cases found
  · intro id vertex found
    cases found
  · intro id body found member
    cases member

end Walking
end QueryGraph
