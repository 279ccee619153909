import QueryGraph.Proofs.Tree.Depth

/-!
# Readings that end

What is read off a tree is read by going from node to node. In a reachable tree, each reading goes
only to older nodes, or only to newer ones. So it ends after at most as many steps as there are
nodes, and a bound on its steps that exceeds their number is no bound at all.
-/

namespace QueryGraph

open Operation

/-! ## Two readings that agree -/

/-- Two readings with the same result, which does not speak of a node that is not there. -/
def Agree (first second : Except TreeError α) : Prop :=
  first = second ∧ ∀ missing, first ≠ .error (.unknownNode missing)

namespace Agree

variable {first second : Except TreeError α}

theorem ok (value : α) : Agree (.ok value) (.ok value) := ⟨rfl, fun _ => nofun⟩

theorem refused
    {error : TreeError}
    (known : ∀ missing, error ≠ .unknownNode missing) :
    Agree (.error error : Except TreeError α) (.error error) :=
  ⟨rfl, fun missing same => known missing (Except.error.inj same)⟩

theorem bind
    {rest other : α -> Except TreeError β}
    (agree : Agree first second)
    (next : ∀ value, Agree (rest value) (other value)) :
    Agree (first >>= rest) (second >>= other) := by
  obtain ⟨rfl, present⟩ := agree
  cases first with
  | ok value => exact next value
  | error error =>
      refine ⟨rfl, fun missing contrary => ?_⟩
      cases contrary
      exact present missing rfl

theorem map
    (agree : Agree first second)
    (change : α -> β) :
    Agree (first.map change) (second.map change) := by
  obtain ⟨rfl, present⟩ := agree
  cases first with
  | ok value => exact .ok (change value)
  | error error =>
      refine ⟨rfl, fun missing contrary => ?_⟩
      cases contrary
      exact present missing rfl

theorem mapM
    {query other : α -> Except TreeError β}
    {items : List α}
    (each : ∀ item ∈ items, Agree (query item) (other item)) :
    Agree (items.mapM query) (items.mapM other) := by
  induction items with
  | nil => exact .ok []
  | cons item items inductionHypothesis =>
      rw [List.mapM_cons, List.mapM_cons]
      refine (each item List.mem_cons_self).bind fun value => ?_
      refine (inductionHypothesis fun next member =>
        each next (List.mem_cons_of_mem item member)).bind fun values => ?_
      exact .ok (value :: values)

end Agree

namespace Tree

/-! ## Settling -/

/-- A reading, with a bound on its steps, that ends by itself: a bound beyond the number of nodes
changes nothing, and from a node it is never reached. A reading that is cut off reports the node
where it was cut off as unknown. -/
structure Settles
    (tree : Tree)
    (read : (fuel : Nat) -> NodeId -> Except TreeError α) : Prop where
  steady : ∀ id fuel, tree.size < fuel -> read fuel id = read (tree.size + 1) id
  founded : ∀ id fuel, tree.size < fuel -> tree.contains id = true ->
    ∀ missing, read fuel id ≠ .error (.unknownNode missing)

/-- A reading that goes from a node on to nodes of a smaller rank, each time in the same way. -/
structure Descends
    (tree : Tree)
    (rank : NodeId -> Nat)
    (read : (fuel : Nat) -> NodeId -> Except TreeError α) : Prop where
  rank_le : ∀ id, tree.contains id = true -> rank id ≤ tree.size
  absent : ∀ id, tree.contains id = false -> ∀ fuel other, read (fuel + 1) id = read (other + 1) id
  agree : ∀ id node, tree.node? id = some node -> ∀ fuel other,
    (∀ next, tree.contains next = true -> rank next < rank id ->
      Agree (read fuel next) (read other next)) ->
    Agree (read (fuel + 1) id) (read (other + 1) id)

variable {tree : Tree} {id : NodeId} {rank : NodeId -> Nat}
  {read : Nat -> NodeId -> Except TreeError α}

/-- With any two bounds beyond the rank of a node, the reading from it is the same. -/
theorem Descends.agree_of_lt
    {fuel other : Nat}
    (descends : tree.Descends rank read)
    (present : tree.contains id = true)
    (enough : rank id < fuel)
    (otherEnough : rank id < other) :
    Agree (read fuel id) (read other id) := by
  induction fuel generalizing id other with
  | zero => exact absurd enough (Nat.not_lt_zero _)
  | succ fuel inductionHypothesis =>
      obtain ⟨other, rfl⟩ : ∃ rest, other = rest + 1 := ⟨other - 1, by omega⟩
      obtain ⟨node, found⟩ := node?_isSome_of_lt (contains_iff.mp present)
      refine descends.agree id node found fuel other fun next nextPresent smaller => ?_
      exact inductionHypothesis nextPresent (by omega) (by omega)

theorem Descends.settles (descends : tree.Descends rank read) : tree.Settles read where
  steady id fuel enough := by
    cases present : tree.contains id with
    | true =>
        have bounded := descends.rank_le id present
        exact (descends.agree_of_lt present (by omega) (by omega)).1
    | false =>
        obtain ⟨fuel, rfl⟩ : ∃ rest, fuel = rest + 1 := ⟨fuel - 1, by omega⟩
        exact descends.absent id present fuel tree.size
  founded id fuel enough present := by
    have bounded := descends.rank_le id present
    have agree : Agree (read fuel id) (read fuel id) :=
      descends.agree_of_lt present (by omega) (by omega)
    exact agree.2

theorem node?_eq_none (absent : tree.contains id = false) : tree.node? id = none := by
  cases found : tree.node? id with
  | none => rfl
  | some node =>
      rw [contains_iff.mpr (lt_size_of_node? found)] at absent
      cases absent

/-- Reading a node that is not there goes no further. -/
theorem node_of_absent (absent : tree.contains id = false) :
    tree.node id = .error (.unknownNode id) := by
  unfold Tree.node
  rw [node?_eq_none absent]

theorem index_le_of_contains (present : tree.contains id = true) : id.index ≤ tree.size :=
  Nat.le_of_lt (contains_iff.mp present)

/-! ## From node to older node -/

theorem Placed.descends_resolveFrom (placed : tree.Placed) :
    tree.Descends NodeId.index tree.resolveFrom where
  rank_le _ := index_le_of_contains
  absent id absent fuel other := by
    simp only [resolveFrom, Tree.source, node_of_absent absent]
  agree id node found fuel other next := by
    simp only [resolveFrom, Tree.source, node_eq_ok.mpr found]
    cases node with
    | source body =>
        have places := (placed id _ found).1
        cases kind : body.kind with
        | root recordType =>
            simp only [kind]
            exact .ok id
        | join parent field direction mode on =>
            simp only [kind]
            exact .ok id
        | correlated outer =>
            rw [kind] at places
            simp only [kind]
            obtain ⟨older, _, _, _, -, -, -, present, -⟩ := places
            exact next outer (contains_iff.mpr (lt_size_of_node? present)) older
    | _ => exact .refused (by simp)

theorem Orderly.descends_enclosesFrom
    (orderly : tree.Orderly)
    (ancestor : NodeId) :
    tree.Descends NodeId.index (tree.enclosesFrom ancestor) where
  rank_le _ := index_le_of_contains
  absent id absent fuel other := by
    simp only [enclosesFrom, Tree.statement, node_of_absent absent]
  agree id node found fuel other next := by
    simp only [enclosesFrom, Tree.statement, node_eq_ok.mpr found]
    by_cases here : id = ancestor
    · simp only [if_pos here]
      exact .ok true
    simp only [if_neg here]
    cases node with
    | statement body =>
        have refers : tree.StatementRefers id body := orderly.referring id _ found
        cases parent : body.parent with
        | none =>
            simp only [parent]
            exact .ok false
        | some around =>
            simp only [parent]
            obtain ⟨older, _, present⟩ := refers.parent around parent
            exact next around (contains_iff.mpr (lt_size_of_node? present)) older
    | _ => exact .refused (by simp)

theorem HasPathLike.contains (pathLike : tree.HasPathLike id) : tree.contains id = true := by
  obtain ⟨node, found, -⟩ := pathLike
  exact contains_iff.mpr (lt_size_of_node? found)

theorem Placed.descends_chain (placed : tree.Placed) :
    tree.Descends NodeId.index (PathChain.ofNode tree) where
  rank_le _ := index_le_of_contains
  absent id absent fuel other := by
    simp only [PathChain.ofNode, node_of_absent absent]
  agree id node found fuel other next := by
    simp only [PathChain.ofNode, node_eq_ok.mpr found]
    cases node with
    | source body => exact .ok _
    | path parent field =>
        obtain ⟨older, pathLike⟩ := placed id _ found
        exact (next parent pathLike.contains older).map _
    | treat target asType =>
        obtain ⟨older, pathLike⟩ := placed id _ found
        exact (next target pathLike.contains older).map _
    | _ => exact .refused (by simp)

theorem Placed.descends_route (placed : tree.Placed) :
    tree.Descends NodeId.index (Route.ofNode tree) where
  rank_le _ := index_le_of_contains
  absent id absent fuel other := by
    simp only [Route.ofNode, node_of_absent absent]
  agree id node found fuel other next := by
    simp only [Route.ofNode, node_eq_ok.mpr found]
    cases node with
    | source body =>
        have places := (placed id _ found).1
        cases kind : body.kind with
        | root recordType =>
            simp only [kind]
            exact .ok _
        | join parent field direction mode on =>
            rw [kind] at places
            simp only [kind]
            obtain ⟨older, _, present, -⟩ := places
            exact (next parent (contains_iff.mpr (lt_size_of_node? present)) older).map _
        | correlated outer =>
            simp only [kind]
            exact .ok _
    | path parent field =>
        obtain ⟨older, pathLike⟩ := placed id _ found
        exact (next parent pathLike.contains older).map _
    | treat target asType =>
        obtain ⟨older, pathLike⟩ := placed id _ found
        exact (next target pathLike.contains older).map _
    | _ => exact .refused (by simp)

/-! ## From node to newer node -/

/-- How many nodes are newer than a node. -/
def newer (tree : Tree) (id : NodeId) : Nat := tree.size - id.index

theorem newer_lt
    {child : NodeId}
    (newer : id.index < child.index)
    (present : tree.contains child = true) :
    tree.newer child < tree.newer id := by
  have below := contains_iff.mp present
  unfold Tree.newer
  omega

theorem Orderly.descends_fetch (orderly : tree.Orderly) :
    tree.Descends tree.newer (FetchTree.ofNode tree) where
  rank_le _ _ := Nat.sub_le _ _
  absent id absent fuel other := by
    simp only [FetchTree.ofNode, node_of_absent absent]
  agree id node found fuel other next := by
    simp only [FetchTree.ofNode, node_eq_ok.mpr found]
    cases node with
    | fetch body =>
        refine Agree.bind (Agree.mapM fun child member => ?_) fun nested => .ok _
        obtain ⟨_, present⟩ := orderly.referring id _ found child member
        have childPresent : tree.contains child = true :=
          contains_iff.mpr (lt_size_of_node? present)
        have newer := ((orderly.listed id _ found).declared member).1
        exact next child childPresent (newer_lt newer childPresent)
    | _ => exact .refused (by simp)

theorem Orderly.descends_source (orderly : tree.Orderly) :
    tree.Descends tree.newer (SourceTree.ofNode tree) where
  rank_le _ _ := Nat.sub_le _ _
  absent id absent fuel other := by
    simp only [SourceTree.ofNode, Tree.source, node_of_absent absent]
  agree id node found fuel other next := by
    simp only [SourceTree.ofNode, Tree.source, node_eq_ok.mpr found]
    cases node with
    | source body =>
        obtain ⟨fetches, read⟩ := FetchTree.exists_mapM_ofNode orderly found
        simp only [read]
        refine Agree.bind (.ok fetches) fun fetches => ?_
        refine Agree.bind (Agree.mapM fun child member => ?_) fun joins => .ok _
        obtain ⟨_, _, _, _, _, present, -⟩ := (orderly.placed id _ found).2.2 child member
        have childPresent : tree.contains child = true :=
          contains_iff.mpr (lt_size_of_node? present)
        have newer :=
          ((orderly.listed id _ found).declared (List.mem_append_right _ member)).1
        exact next child childPresent (newer_lt newer childPresent)
    | _ => exact .refused (by simp)

end Tree
end QueryGraph
