import QueryGraph.Proofs.Path.Route
import QueryGraph.Proofs.Tree.References

/-!
# What can be read off a reachable tree

A path hangs off older nodes, a correlated source stands for an older one, and joins and fetches
are newer than what they are declared on. So every chain of them is shorter than the tree, and the
number of nodes is enough to read each of them to its end.
-/

namespace QueryGraph

open Operation

namespace Tree

/-- A tree whose nodes stand where they have to, list what is declared on them, and refer to nodes
of the right kind. -/
structure Orderly (tree : Tree) : Prop where
  placed : tree.Placed
  listed : tree.Listed
  referring : tree.Referring

variable {tree before after : Tree} {id : NodeId} {fuel : Nat}

theorem Reachable.orderly (reachable : tree.Reachable) : tree.Orderly :=
  ⟨reachable.placed, reachable.listed, reachable.referring⟩

theorem Orderly.of_nodes
    (orderly : before.Orderly)
    (nodes : after.nodes = before.nodes) :
    after.Orderly :=
  ⟨orderly.placed.of_nodes nodes, orderly.listed.of_nodes nodes, orderly.referring.of_nodes nodes⟩

theorem Orderly.changes
    (orderly : before.Orderly)
    (changes : before.Changes after) :
    after.Orderly :=
  ⟨orderly.placed.changes changes, orderly.listed.changes changes,
    orderly.referring.changes changes⟩

end Tree

/-! ## Sources -/

namespace FetchTree

variable {tree : Tree} {id other : NodeId} {fuel : Nat}

/-- A fetch can be read with everything below it. -/
theorem exists_ofNode
    (orderly : tree.Orderly)
    (isFetch : tree.HasFetch id)
    (enough : tree.size ≤ id.index + fuel) :
    ∃ fetch, ofNode tree fuel id = .ok fetch := by
  induction fuel generalizing id with
  | zero =>
      obtain ⟨body, found⟩ := isFetch
      exact absurd (Tree.lt_size_of_node? found) (Nat.not_lt.mpr enough)
  | succ fuel inductionHypothesis =>
      obtain ⟨body, found⟩ := isFetch
      have nested : ∃ nested, body.fetches.mapM (ofNode tree fuel) = .ok nested := by
        refine exists_mapM_eq_ok fun child member => ?_
        have newer := ((orderly.listed id _ found).declared member).1
        exact inductionHypothesis (orderly.referring id _ found child member) (by omega)
      obtain ⟨nested, read⟩ := nested
      exact ⟨_, ofNode_succ_eq_ok.mpr ⟨body, nested, found, read, rfl⟩⟩

/-- The fetches of a source can be read. -/
theorem exists_mapM_ofNode
    {body : Source}
    (orderly : tree.Orderly)
    (found : tree.node? id = some (.source body)) :
    ∃ fetches, body.fetches.mapM (ofNode tree (tree.size + 1)) = .ok fetches := by
  refine exists_mapM_eq_ok fun child member => ?_
  exact exists_ofNode orderly ((orderly.referring id _ found).2 child member) (by omega)

/-- All numbers in a fetch belong to nodes. -/
theorem lt_size_of_mem_ids
    {fetch : FetchTree}
    (listed : tree.Listed)
    (read : fetch.ReadFrom tree)
    (member : other ∈ fetch.ids) :
    other.index < tree.size := by
  rcases Relation.ReflTransGen.cases_head (fetchedBelow_of_mem_ids listed fetch read member) with
    rfl | ⟨next, ⟨-, body, found⟩, -⟩
  · obtain ⟨id, field, direction, collection, nested⟩ := fetch
    obtain ⟨body, found, -⟩ := readFrom_mk listed read
    exact Tree.lt_size_of_node? found
  · exact Tree.lt_size_of_node? found

end FetchTree

namespace SourceTree

variable {tree : Tree} {id other : NodeId} {fuel : Nat}

/-- A source can be read with everything below it. -/
theorem exists_ofNode
    {body : Source}
    (orderly : tree.Orderly)
    (found : tree.node? id = some (.source body))
    (enough : tree.size ≤ id.index + fuel) :
    ∃ source, ofNode tree fuel id = .ok source := by
  induction fuel generalizing id body with
  | zero => exact absurd (Tree.lt_size_of_node? found) (Nat.not_lt.mpr enough)
  | succ fuel inductionHypothesis =>
      have lists := orderly.listed id _ found
      have fetches := FetchTree.exists_mapM_ofNode orderly found
      have joins : ∃ joins, body.joins.mapM (ofNode tree fuel) = .ok joins := by
        refine exists_mapM_eq_ok fun child member => ?_
        have newer := (lists.declared (List.mem_append_right _ member)).1
        obtain ⟨join, _, _, _, _, joinFound, -⟩ := (orderly.placed id _ found).2.2 child member
        exact inductionHypothesis joinFound (by omega)
      obtain ⟨fetches, fetchesRead⟩ := fetches
      obtain ⟨joins, joinsRead⟩ := joins
      exact ⟨_, ofNode_succ_eq_ok.mpr ⟨body, fetches, joins, found, fetchesRead, joinsRead, rfl⟩⟩

/-- Every number in a source is that of a source below it, or of a fetch of one. -/
theorem exists_contains_of_mem_ids
    (source : SourceTree)
    (member : other ∈ source.ids) :
    ∃ inner, source.Contains inner ∧
      (other = inner.id ∨ ∃ fetch ∈ inner.fetches, other ∈ fetch.ids) := by
  match source, member with
  | .mk id body fetches joins, member =>
      rcases List.mem_cons.mp member with rfl | below
      · exact ⟨_, .here _, Or.inl rfl⟩
      rcases List.mem_append.mp below with inFetches | inJoins
      · obtain ⟨fetch, listed, inFetch⟩ := List.mem_flatMap.mp inFetches
        exact ⟨_, .here _, Or.inr ⟨fetch, listed, inFetch⟩⟩
      · obtain ⟨join, listed, inJoin⟩ := mem_joinIds.mp inJoins
        obtain ⟨inner, contains, place⟩ := exists_contains_of_mem_ids join inJoin
        exact ⟨inner, .inside listed contains, place⟩

/-- All numbers in a source belong to nodes. -/
theorem lt_size_of_mem_ids
    {source : SourceTree}
    (listed : tree.Listed)
    (read : source.ReadFrom tree)
    (member : other ∈ source.ids) :
    other.index < tree.size := by
  obtain ⟨⟨id, body, fetches, joins⟩, contains, place⟩ := source.exists_contains_of_mem_ids member
  obtain ⟨found, fetchesFound, -⟩ := readFrom_mk (contains.readFrom read)
  rcases place with rfl | ⟨fetch, fetchMember, inFetch⟩
  · exact Tree.lt_size_of_node? found
  · obtain ⟨_, again, fetchesRead⟩ := Tree.fetchTrees_eq_ok.mp fetchesFound
    obtain ⟨child, -, childRead⟩ := exists_of_mem_mapM fetchesRead fetchMember
    refine FetchTree.lt_size_of_mem_ids listed ⟨tree.size + 1, ?_⟩ inFetch
    rwa [FetchTree.id_of_ofNode childRead]

theorem mem_joinConditions
    {joins : List SourceTree} :
    id ∈ conditions.joinConditions joins ↔ ∃ join ∈ joins, id ∈ join.conditions := by
  induction joins with
  | nil => simp [conditions.joinConditions]
  | cons join joins inductionHypothesis =>
      simp [conditions.joinConditions, inductionHypothesis]

/-- A condition that is read belongs to a source below. -/
theorem exists_contains_of_mem_conditions
    (source : SourceTree)
    (member : other ∈ source.conditions) :
    ∃ inner, source.Contains inner ∧ inner.source.condition? = some other := by
  match source, member with
  | .mk id body fetches joins, member =>
      rcases List.mem_append.mp member with here | below
      · exact ⟨_, .here _, Option.mem_toList.mp here⟩
      · obtain ⟨join, listed, inJoin⟩ := mem_joinConditions.mp below
        obtain ⟨inner, contains, place⟩ := exists_contains_of_mem_conditions join inJoin
        exact ⟨inner, .inside listed contains, place⟩

end SourceTree

namespace Tree

variable {tree : Tree} {id : NodeId} {fuel : Nat}

theorem Orderly.exists_sourceTree
    {body : Source}
    (orderly : tree.Orderly)
    (found : tree.node? id = some (.source body)) :
    ∃ source, tree.sourceTree id = .ok source :=
  SourceTree.exists_ofNode orderly found (by omega)

/-! ## Correlations and paths -/

/-- A source finally stands for one that stands for itself. -/
theorem Placed.exists_resolveFrom
    {body : Source}
    (placed : tree.Placed)
    (found : tree.node? id = some (.source body))
    (enough : id.index < fuel) :
    ∃ outer source, tree.resolveFrom fuel id = .ok outer ∧
      tree.node? outer = some (.source source) ∧ source.isCorrelated = false := by
  induction fuel generalizing id body with
  | zero => exact absurd enough (Nat.not_lt_zero _)
  | succ fuel inductionHypothesis =>
      rw [resolveFrom, source_eq_ok.mpr found]
      cases kind : body.kind with
      | root recordType =>
          simp only [kind]
          exact ⟨id, body, rfl, found, by simp [Source.isCorrelated, kind]⟩
      | join parent field direction mode on =>
          simp only [kind]
          exact ⟨id, body, rfl, found, by simp [Source.isCorrelated, kind]⟩
      | correlated next =>
          simp only [kind]
          have places := (placed id _ found).1
          rw [kind] at places
          obtain ⟨older, _, _, nextBody, -, -, -, nextFound, -⟩ := places
          exact inductionHypothesis nextFound (by omega)

theorem Placed.exists_resolveCorrelation
    {body : Source}
    (placed : tree.Placed)
    (found : tree.node? id = some (.source body)) :
    ∃ outer source, tree.resolveCorrelation id = .ok outer ∧
      tree.node? outer = some (.source source) ∧ source.isCorrelated = false :=
  placed.exists_resolveFrom found (Nat.lt_succ_of_lt (lt_size_of_node? found))

/-- A path can be followed to its source, through nodes of the tree. -/
theorem Placed.exists_chainOfNode
    (placed : tree.Placed)
    (isPathLike : tree.HasPathLike id)
    (enough : id.index < fuel) :
    ∃ chain, PathChain.ofNode tree fuel id = .ok chain ∧
      ∀ node ∈ chain.below, node.index < tree.size := by
  induction fuel generalizing id with
  | zero => exact absurd enough (Nat.not_lt_zero _)
  | succ fuel inductionHypothesis =>
      have follow {next : NodeId} (older : next.index < id.index) (above : tree.HasPathLike next)
          (passed : (∃ name, tree.node? id = some (.path next name)) ∨
            ∃ asType, tree.node? id = some (.treat next asType)) :
          ∃ chain, PathChain.ofNode tree (fuel + 1) id = .ok chain ∧
            ∀ node ∈ chain.below, node.index < tree.size := by
        obtain ⟨inner, read, contained⟩ := inductionHypothesis above (by omega)
        refine ⟨_, chainOfNode_succ_eq_ok.mpr (Or.inr ⟨next, inner, passed, read, rfl⟩), ?_⟩
        obtain ⟨node, found, -⟩ := above
        exact List.forall_mem_cons.mpr ⟨lt_size_of_node? found, contained⟩
      obtain ⟨node, found, pathLike⟩ := isPathLike
      cases node with
      | source body =>
          exact ⟨_, chainOfNode_succ_eq_ok.mpr (Or.inl ⟨body, found, rfl⟩), List.forall_mem_nil _⟩
      | path parent field =>
          obtain ⟨older, above⟩ := placed id _ found
          exact follow older above (Or.inl ⟨field, found⟩)
      | treat target asType =>
          obtain ⟨older, above⟩ := placed id _ found
          exact follow older above (Or.inr ⟨asType, found⟩)
      | _ => cases pathLike

theorem Placed.exists_pathChain
    (placed : tree.Placed)
    (isPathLike : tree.HasPathLike id) :
    ∃ chain, tree.pathChain id = .ok chain ∧ ∀ node ∈ chain.below, node.index < tree.size := by
  have ⟨node, found, _⟩ := isPathLike
  exact placed.exists_chainOfNode isPathLike (Nat.lt_succ_of_lt (lt_size_of_node? found))

end Tree
end QueryGraph
