import QueryGraph.Proofs.Tree.Evolution

/-!
# Trees that agree on some nodes

Joins and fetches are found through lists that may grow. Where a later tree has the same
nodes along the way, it has the same joins and fetches.
-/

namespace QueryGraph

namespace FetchTree

theorem mem_nestedIds
    {id : NodeId}
    {fetches : List FetchTree} :
    id ∈ ids.nestedIds fetches ↔ ∃ fetch ∈ fetches, id ∈ fetch.ids := by
  induction fetches with
  | nil => simp [ids.nestedIds]
  | cons fetch fetches inductionHypothesis => simp [ids.nestedIds, inductionHypothesis]

theorem ofNode_succ_eq_ok
    {tree : Tree}
    {fuel : Nat}
    {id : NodeId}
    {fetch : FetchTree} :
    ofNode tree (fuel + 1) id = .ok fetch ↔
      ∃ body nested, tree.node? id = some (.fetch body) ∧
        body.fetches.mapM (ofNode tree fuel) = .ok nested ∧
        fetch = .mk id body.field body.direction body.collection nested := by
  unfold ofNode
  cases found : tree.node id with
  | error error =>
      simp only [reduceCtorEq, false_iff]
      rintro ⟨body, nested, present, -⟩
      rw [Tree.node_eq_ok.mpr present] at found
      cases found
  | ok node =>
      have present := Tree.node_eq_ok.mp found
      rw [present]
      cases node with
      | fetch body =>
          cases nestedFound : body.fetches.mapM (ofNode tree fuel) with
          | error error =>
              simp only [nestedFound, bind, Except.bind, reduceCtorEq, false_iff]
              rintro ⟨other, nested, same, contrary, -⟩
              cases same
              rw [nestedFound] at contrary
              cases contrary
          | ok nested =>
              simp only [nestedFound, bind, Except.bind, pure, Except.pure, Except.ok.injEq]
              constructor
              · rintro rfl
                exact ⟨body, nested, rfl, nestedFound, rfl⟩
              · rintro ⟨other, again, same, nestedSame, rfl⟩
                cases same
                rw [nestedFound] at nestedSame
                cases nestedSame
                rfl
      | _ => simp

end FetchTree

namespace SourceTree

theorem mem_joinIds
    {id : NodeId}
    {joins : List SourceTree} :
    id ∈ ids.joinIds joins ↔ ∃ join ∈ joins, id ∈ join.ids := by
  induction joins with
  | nil => simp [ids.joinIds]
  | cons join joins inductionHypothesis => simp [ids.joinIds, inductionHypothesis]

theorem ofNode_succ_eq_ok
    {tree : Tree}
    {fuel : Nat}
    {id : NodeId}
    {source : SourceTree} :
    ofNode tree (fuel + 1) id = .ok source ↔
      ∃ body fetches joins, tree.node? id = some (.source body) ∧
        body.fetches.mapM (FetchTree.ofNode tree (tree.size + 1)) = .ok fetches ∧
        body.joins.mapM (ofNode tree fuel) = .ok joins ∧
        source = .mk id body fetches joins := by
  unfold ofNode
  cases found : tree.source id with
  | error error =>
      simp only [reduceCtorEq, false_iff]
      rintro ⟨body, fetches, joins, present, -⟩
      rw [Tree.source_eq_ok.mpr present] at found
      cases found
  | ok body =>
      have present := Tree.source_eq_ok.mp found
      cases fetchesFound : body.fetches.mapM (FetchTree.ofNode tree (tree.size + 1)) with
      | error error =>
          simp only [fetchesFound, bind, Except.bind, reduceCtorEq, false_iff]
          rintro ⟨other, fetches, joins, same, contrary, -⟩
          rw [present] at same
          cases same
          rw [fetchesFound] at contrary
          cases contrary
      | ok fetches =>
          cases joinsFound : body.joins.mapM (ofNode tree fuel) with
          | error error =>
              simp only [fetchesFound, joinsFound, bind, Except.bind, reduceCtorEq, false_iff]
              rintro ⟨other, fetches, joins, same, -, contrary, -⟩
              rw [present] at same
              cases same
              rw [joinsFound] at contrary
              cases contrary
          | ok joins =>
              simp only [fetchesFound, joinsFound, bind, Except.bind, pure, Except.pure,
                Except.ok.injEq]
              constructor
              · rintro rfl
                exact ⟨body, fetches, joins, present, fetchesFound, joinsFound, rfl⟩
              · rintro ⟨other, fetchesAgain, joinsAgain, same, fetchesSame, joinsSame, rfl⟩
                rw [present] at same
                cases same
                rw [fetchesFound] at fetchesSame
                rw [joinsFound] at joinsSame
                cases fetchesSame
                cases joinsSame
                rfl

end SourceTree

namespace Tree

theorem fetchTrees_eq_ok
    {tree : Tree}
    {id : NodeId}
    {fetches : List FetchTree} :
    tree.fetchTrees id = .ok fetches ↔
      ∃ body, tree.node? id = some (.source body) ∧
        body.fetches.mapM (FetchTree.ofNode tree (tree.size + 1)) = .ok fetches := by
  unfold fetchTrees
  cases found : tree.source id with
  | error error =>
      simp only [bind, Except.bind, reduceCtorEq, false_iff]
      rintro ⟨body, present, -⟩
      rw [source_eq_ok.mpr present] at found
      cases found
  | ok body =>
      have present := source_eq_ok.mp found
      constructor
      · intro fetchesFound
        exact ⟨body, present, fetchesFound⟩
      · rintro ⟨other, same, fetchesFound⟩
        rw [present] at same
        cases same
        exact fetchesFound

/-- A later tree that has the same node as an earlier one wherever the earlier one was
held. -/
structure Matches
    (held : List NodeId)
    (before after : Tree) : Prop where
  evolves : before.Evolves after
  node?_eq : ∀ id ∈ held, after.node? id = before.node? id

namespace Matches

/-- Trees with the same nodes agree everywhere. -/
theorem of_nodes
    {before after : Tree}
    (nodes : after.nodes = before.nodes)
    (held : List NodeId) :
    Matches held before after :=
  ⟨.of_eq (node?_eq_of_nodes nodes), fun id _ => node?_eq_of_nodes nodes id⟩

variable {held : List NodeId} {before after : Tree}

theorem trans
    {last : Tree}
    (earlier : Matches held before after)
    (later : Matches held after last) :
    Matches held before last where
  evolves := earlier.evolves.trans later.evolves
  node?_eq id member := (later.node?_eq id member).trans (earlier.node?_eq id member)

theorem fetchOfNode
    {fuel more : Nat}
    {id : NodeId}
    {fetch : FetchTree}
    (agree : Matches held before after)
    (enough : fuel ≤ more)
    (covered : fetch.ids ⊆ held)
    (found : FetchTree.ofNode before fuel id = .ok fetch) :
    FetchTree.ofNode after more id = .ok fetch := by
  induction fuel generalizing more id fetch with
  | zero => cases found
  | succ fuel inductionHypothesis =>
      obtain ⟨more, rfl⟩ : ∃ rest, more = rest + 1 := ⟨more - 1, by omega⟩
      have enough : fuel ≤ more := by omega
      obtain ⟨body, nested, present, nestedFound, rfl⟩ := FetchTree.ofNode_succ_eq_ok.mp found
      refine FetchTree.ofNode_succ_eq_ok.mpr ⟨body, nested, ?_, ?_, rfl⟩
      · rw [agree.node?_eq id (covered List.mem_cons_self), present]
      · apply Operation.mapM_eq_ok_of_imp nestedFound
        intro child _ below member childFound
        refine inductionHypothesis enough ?_ childFound
        intro inner innerMember
        exact covered (List.mem_cons_of_mem id
          (FetchTree.mem_nestedIds.mpr ⟨below, member, innerMember⟩))

theorem fetches
    {ids : List NodeId}
    {fetches : List FetchTree}
    (agree : Matches held before after)
    (covered : ∀ fetch ∈ fetches, fetch.ids ⊆ held)
    (found : ids.mapM (FetchTree.ofNode before (before.size + 1)) = .ok fetches) :
    ids.mapM (FetchTree.ofNode after (after.size + 1)) = .ok fetches := by
  apply Operation.mapM_eq_ok_of_imp found
  intro id _ fetch member fetchFound
  exact agree.fetchOfNode (Nat.succ_le_succ agree.evolves.size_le) (covered fetch member) fetchFound

/-- The joins and fetches below a source are the same where all of them are held. -/
theorem sourceOfNode
    {fuel more : Nat}
    {id : NodeId}
    {source : SourceTree}
    (agree : Matches held before after)
    (enough : fuel ≤ more)
    (covered : source.ids ⊆ held)
    (found : SourceTree.ofNode before fuel id = .ok source) :
    SourceTree.ofNode after more id = .ok source := by
  induction fuel generalizing more id source with
  | zero => cases found
  | succ fuel inductionHypothesis =>
      obtain ⟨more, rfl⟩ : ∃ rest, more = rest + 1 := ⟨more - 1, by omega⟩
      have enough : fuel ≤ more := by omega
      obtain ⟨body, fetches, joins, present, fetchesFound, joinsFound, rfl⟩ :=
        SourceTree.ofNode_succ_eq_ok.mp found
      refine SourceTree.ofNode_succ_eq_ok.mpr ⟨body, fetches, joins, ?_, ?_, ?_, rfl⟩
      · rw [agree.node?_eq id (covered List.mem_cons_self), present]
      · refine agree.fetches ?_ fetchesFound
        intro fetch member inner innerMember
        refine covered (List.mem_cons_of_mem id (List.mem_append_left _ ?_))
        exact List.mem_flatMap.mpr ⟨fetch, member, innerMember⟩
      · apply Operation.mapM_eq_ok_of_imp joinsFound
        intro child _ below member childFound
        refine inductionHypothesis enough ?_ childFound
        intro inner innerMember
        exact covered (List.mem_cons_of_mem id (List.mem_append_right _
          (SourceTree.mem_joinIds.mpr ⟨below, member, innerMember⟩)))

theorem sourceTree
    {id : NodeId}
    {source : SourceTree}
    (agree : Matches held before after)
    (covered : source.ids ⊆ held)
    (found : before.sourceTree id = .ok source) :
    after.sourceTree id = .ok source :=
  agree.sourceOfNode (Nat.succ_le_succ agree.evolves.size_le) covered found

theorem fetchTrees
    {id : NodeId}
    {fetches : List FetchTree}
    (agree : Matches held before after)
    (isHeld : id ∈ held)
    (covered : ∀ fetch ∈ fetches, fetch.ids ⊆ held)
    (found : before.fetchTrees id = .ok fetches) :
    after.fetchTrees id = .ok fetches := by
  obtain ⟨body, present, fetchesFound⟩ := fetchTrees_eq_ok.mp found
  refine fetchTrees_eq_ok.mpr ⟨body, ?_, agree.fetches covered fetchesFound⟩
  rw [agree.node?_eq id isHeld, present]

end Matches
end Tree
end QueryGraph
