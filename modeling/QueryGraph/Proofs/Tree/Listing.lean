import QueryGraph.Proofs.Graph.Declarations
import QueryGraph.Proofs.Tree.Placement

/-!
# Nodes are declared once

A root is declared on its statement, a join and a fetch on what they hang off. Whatever a node
lists is declared on it, is newer, and is listed once. What is declared below a node is
therefore reached over one way only, and the sources and fetches that are read off a tree are
all different.
-/

namespace QueryGraph

namespace Node

/-- The node that a root, a join or a fetch is declared on. -/
def owner? : Node -> Option NodeId
  | .source body =>
      match body.kind with
      | .root _ => some body.statement
      | .join parent _ _ _ _ => some parent
      | .correlated _ => none
  | .fetch body => some body.parent
  | _ => none

/-- The roots, joins and fetches that a node lists. -/
def declared : Node -> List NodeId
  | .statement body => body.roots
  | .source body => body.fetches ++ body.joins
  | .fetch body => body.fetches
  | _ => []

theorem owner?_of_isCorrelated
    {body : Source}
    (correlated : body.isCorrelated = true) :
    (Node.source body).owner? = none := by
  unfold Source.isCorrelated at correlated
  cases kind : body.kind <;> simp_all [owner?]

/-- What a node is declared on belongs to its shape. -/
theorem owner?_of_shape
    {node later : Node}
    (same : later.shape = node.shape) :
    later.owner? = node.owner? := by
  cases node with
  | source body =>
      obtain ⟨newer, rfl, sameStatement, sameKind⟩ := shape_eq_source same
      unfold owner?
      cases kind : body.kind with
      | root recordType =>
          rw [kind] at sameKind
          simp only [kind, SourceKind.shape_eq_root sameKind, sameStatement]
      | join parent field direction mode on =>
          rw [kind] at sameKind
          obtain ⟨laterOn, laterKind⟩ := SourceKind.shape_eq_join sameKind
          simp only [kind, laterKind]
      | correlated outer =>
          rw [kind] at sameKind
          simp only [kind, SourceKind.shape_eq_correlated sameKind]
  | fetch body =>
      cases later with
      | fetch newer =>
          simp only [shape, fetch.injEq, Fetch.mk.injEq] at same
          exact congrArg some same.1
      | _ => cases same
  | statement body => cases later <;> first | rfl | cases same
  | _ => cases later <;> first | rfl | cases same

end Node

namespace Tree

/-- A node is declared on an older one. -/
def DeclaredOn
    (tree : Tree)
    (child parent : NodeId) : Prop :=
  parent.index < child.index ∧
    ∃ node, tree.node? child = some node ∧ node.owner? = some parent

/-- What a node lists is listed once, and declared on the node. -/
structure ListsOnce
    (tree : Tree)
    (id : NodeId)
    (node : Node) : Prop where
  nodup : node.declared.Nodup
  declared : ∀ {child}, child ∈ node.declared -> tree.DeclaredOn child id

/-- A tree in which nodes list what is declared on them. -/
def Listed (tree : Tree) : Prop :=
  ∀ id node, tree.node? id = some node -> tree.ListsOnce id node

/-! ## Changes preserve the lists -/

theorem DeclaredOn.of_evolves
    {before after : Tree}
    {child parent : NodeId}
    (declared : before.DeclaredOn child parent)
    (evolves : before.Evolves after) :
    after.DeclaredOn child parent := by
  obtain ⟨older, node, found, owner⟩ := declared
  obtain ⟨later, foundLater, same⟩ := evolves child node found
  exact ⟨older, later, foundLater, (Node.owner?_of_shape same).trans owner⟩

theorem ListsOnce.of_evolves
    {before after : Tree}
    {id : NodeId}
    {node changed : Node}
    (lists : before.ListsOnce id node)
    (evolves : before.Evolves after)
    (same : changed.declared = node.declared) :
    after.ListsOnce id changed where
  nodup := by
    rw [same]
    exact lists.nodup
  declared member := by
    rw [same] at member
    exact (lists.declared member).of_evolves evolves

theorem lists_of_empty
    {tree : Tree}
    {id : NodeId}
    {node : Node}
    (empty : node.declared = []) :
    tree.ListsOnce id node where
  nodup := by
    rw [empty]
    exact List.nodup_nil
  declared member := by
    rw [empty] at member
    cases member

theorem Loose.declared_eq_nil
    {tree : Tree}
    {node : Node}
    (loose : tree.Loose node) :
    node.declared = [] := by
  cases loose <;> rfl

theorem Adopts.declared_child
    {tree : Tree}
    {parent : NodeId}
    {node child grown : Node}
    (adopts : tree.Adopts parent node child grown) :
    child.declared = [] := by
  cases adopts <;> rfl

theorem Alters.declared_eq
    {tree : Tree}
    {node changed : Node}
    (alters : tree.Alters node changed) :
    changed.declared = node.declared := by
  cases alters <;> rfl

/-- A node that adopts another one comes to list it, or lists what it did. -/
theorem Adopts.declared_grown
    {tree : Tree}
    {parent : NodeId}
    {node child grown : Node}
    (adopts : tree.Adopts parent node child grown) :
    (grown.declared.Perm (⟨tree.size⟩ :: node.declared) ∧ child.owner? = some parent) ∨
      grown.declared = node.declared := by
  cases adopts with
  | root body recordType => exact Or.inl ⟨List.perm_append_singleton _ _, rfl⟩
  | join body field direction mode declared =>
      refine Or.inl ⟨?_, rfl⟩
      change (body.fetches ++ (body.joins ++ [_])).Perm _
      rw [← List.append_assoc]
      exact List.perm_append_singleton _ _
  | correlation => exact Or.inr rfl
  | fetchOfSource body field direction collection declared =>
      refine Or.inl ⟨?_, rfl⟩
      exact (List.perm_append_singleton _ body.fetches).append_right body.joins
  | fetchOfFetch body field direction collection =>
      exact Or.inl ⟨List.perm_append_singleton _ _, rfl⟩
  | order => exact Or.inr rfl
  | assignment => exact Or.inr rfl

theorem Adopts.lists_grown
    {tree after : Tree}
    {parent : NodeId}
    {node child grown : Node}
    (adopts : tree.Adopts parent node child grown)
    (found : tree.node? parent = some node)
    (lists : tree.ListsOnce parent node)
    (evolves : tree.Evolves after)
    (foundChild : after.node? ⟨tree.size⟩ = some child) :
    after.ListsOnce parent grown := by
  rcases adopts.declared_grown with ⟨listed, owner⟩ | same
  · have new : (⟨tree.size⟩ : NodeId) ∉ node.declared := by
      intro member
      obtain ⟨-, older, present, -⟩ := lists.declared member
      exact Nat.lt_irrefl _ (lt_size_of_node? present)
    refine ⟨listed.nodup_iff.mpr (List.nodup_cons.mpr ⟨new, lists.nodup⟩), fun member => ?_⟩
    rcases List.mem_cons.mp (listed.mem_iff.mp member) with rfl | old
    · exact ⟨lt_size_of_node? found, child, foundChild, owner⟩
    · exact (lists.declared old).of_evolves evolves
  · exact lists.of_evolves evolves same

theorem Listed.change
    {before after : Tree}
    (listed : before.Listed)
    (change : before.Change after) :
    after.Listed := by
  have evolves := change.evolves
  intro id node found
  cases change.origin found with
  | kept foundBefore => exact (listed id node foundBefore).of_evolves evolves rfl
  | added new loose => exact lists_of_empty loose.declared_eq_nil
  | adopted parent older grown new foundParent adopts foundGrown =>
      exact lists_of_empty adopts.declared_child
  | grown older child foundOlder adopts foundChild =>
      exact adopts.lists_grown foundOlder (listed id older foundOlder) evolves foundChild
  | altered older foundOlder alters =>
      exact (listed id older foundOlder).of_evolves evolves alters.declared_eq

theorem Listed.changes
    {before after : Tree}
    (listed : before.Listed)
    (changes : before.Changes after) :
    after.Listed := by
  induction changes with
  | refl => exact listed
  | tail earlier change inductionHypothesis => exact inductionHypothesis.change change

theorem Listed.of_nodes
    {before after : Tree}
    (listed : before.Listed)
    (nodes : after.nodes = before.nodes) :
    after.Listed := by
  intro id node found
  rw [node?_eq_of_nodes nodes] at found
  exact (listed id node found).of_evolves (.of_eq (node?_eq_of_nodes nodes)) rfl

/-- In a reachable tree nodes list what is declared on them. -/
theorem Reachable.listed
    {tree : Tree}
    (reachable : tree.Reachable) :
    tree.Listed := by
  refine reachable.induction_of_nodes ?_ ?_ ?_
  · intro kind id node found
    obtain rfl := node?_ofKind found
    exact lists_of_empty rfl
  · exact fun before after change listed => listed.change change
  · exact fun before after nodes listed => listed.of_nodes nodes

/-! ## What is declared below a node -/

/-- A node is another one, or declared somewhere below it. -/
def DeclaredBelow (tree : Tree) : NodeId -> NodeId -> Prop :=
  Relation.ReflTransGen tree.DeclaredOn

variable {tree : Tree} {id child parent other : NodeId}

/-- A source that stands for no other one stands for itself. -/
theorem resolveCorrelation_of_original
    {body : Source}
    (found : tree.node? id = some (.source body))
    (original : body.isCorrelated = false) :
    tree.resolveCorrelation id = .ok id := by
  unfold resolveCorrelation
  rw [resolveFrom, source_eq_ok.mpr found]
  cases kind : body.kind with
  | correlated outer => simp [Source.isCorrelated, kind] at original
  | _ => simp only [kind]

/-- A source that is declared on a node stands for itself. -/
theorem Listed.resolveCorrelation
    {node : Node}
    {body : Source}
    (listed : tree.Listed)
    (found : tree.node? parent = some node)
    (member : child ∈ node.declared)
    (isSource : tree.node? child = some (.source body)) :
    tree.resolveCorrelation child = .ok child := by
  obtain ⟨-, again, present, owner⟩ := (listed parent node found).declared member
  rw [isSource] at present
  cases present
  refine resolveCorrelation_of_original isSource ?_
  cases correlated : body.isCorrelated with
  | false => rfl
  | true =>
      rw [Node.owner?_of_isCorrelated correlated] at owner
      cases owner

theorem DeclaredOn.unique
    (first : tree.DeclaredOn child parent)
    (second : tree.DeclaredOn child other) :
    parent = other := by
  obtain ⟨-, node, found, owner⟩ := first
  obtain ⟨-, again, foundAgain, otherOwner⟩ := second
  rw [found] at foundAgain
  cases foundAgain
  rw [owner] at otherOwner
  exact Option.some.inj otherOwner

theorem DeclaredBelow.le
    (below : tree.DeclaredBelow child parent) :
    parent.index ≤ child.index := by
  induction below with
  | refl => exact Nat.le_refl _
  | tail _ declared inductionHypothesis =>
      exact Nat.le_trans (Nat.le_of_lt declared.1) inductionHypothesis

/-- Nothing is declared below two nodes that are declared on the same one. -/
theorem DeclaredBelow.sibling_eq
    {first second : NodeId}
    (belowFirst : tree.DeclaredBelow id first)
    (belowSecond : tree.DeclaredBelow id second)
    (onFirst : tree.DeclaredOn first parent)
    (onSecond : tree.DeclaredOn second parent) :
    first = second := by
  -- One of the two is below the other; if it is not the same, so is the parent.
  have nested : ∀ {lower upper}, tree.DeclaredBelow lower upper ->
      tree.DeclaredOn lower parent -> tree.DeclaredOn upper parent -> lower = upper := by
    intro lower upper below onLower onUpper
    rcases Relation.ReflTransGen.cases_head below with same | ⟨next, step, rest⟩
    · exact same
    · cases step.unique onLower
      have contrary : upper.index ≤ parent.index := DeclaredBelow.le rest
      exact absurd onUpper.1 (Nat.not_lt.mpr contrary)
  have unique : Relator.RightUnique tree.DeclaredOn := fun _ _ _ one two => one.unique two
  rcases Relation.ReflTransGen.total_of_right_unique unique belowFirst belowSecond with
    below | below
  · exact nested below onFirst onSecond
  · exact (nested below onSecond onFirst).symm

/-- A fetch that is declared on another node. -/
def FetchedOn
    (tree : Tree)
    (child parent : NodeId) : Prop :=
  tree.DeclaredOn child parent ∧ ∃ body, tree.node? child = some (.fetch body)

/-- A node is another one, or fetched somewhere below it. -/
def FetchedBelow (tree : Tree) : NodeId -> NodeId -> Prop :=
  Relation.ReflTransGen tree.FetchedOn

theorem FetchedBelow.declaredBelow
    (below : tree.FetchedBelow child parent) :
    tree.DeclaredBelow child parent :=
  Relation.ReflTransGen.mono (fun _ _ fetched => fetched.1) _ _ below

/-- Where a relation leads to at most one node from each, it ends in at most one. -/
theorem end_unique
    {relation : NodeId -> NodeId -> Prop}
    {first second : NodeId}
    (unique : Relator.RightUnique relation)
    (toFirst : Relation.ReflTransGen relation id first)
    (toSecond : Relation.ReflTransGen relation id second)
    (firstEnds : ∀ next, ¬ relation first next)
    (secondEnds : ∀ next, ¬ relation second next) :
    first = second := by
  rcases Relation.ReflTransGen.total_of_right_unique unique toFirst toSecond with onward | back
  · rcases Relation.ReflTransGen.cases_head onward with same | ⟨next, step, -⟩
    · exact same
    · exact absurd step (firstEnds next)
  · rcases Relation.ReflTransGen.cases_head back with same | ⟨next, step, -⟩
    · exact same.symm
    · exact absurd step (secondEnds next)

/-- A fetch belongs to one source. -/
theorem FetchedBelow.source_eq
    {first second : NodeId}
    {firstBody secondBody : Source}
    (belowFirst : tree.FetchedBelow id first)
    (belowSecond : tree.FetchedBelow id second)
    (firstFound : tree.node? first = some (.source firstBody))
    (secondFound : tree.node? second = some (.source secondBody)) :
    first = second := by
  have ends : ∀ {source body}, tree.node? source = some (.source body) ->
      ∀ next, ¬ tree.FetchedOn source next := by
    rintro source body found next ⟨-, fetch, again⟩
    rw [found] at again
    cases again
  exact end_unique (fun _ _ _ one two => one.1.unique two.1) belowFirst belowSecond
    (ends firstFound) (ends secondFound)

/-- What is declared on no node is below no other one. -/
theorem DeclaredBelow.eq_of_owner?
    {node : Node}
    (below : tree.DeclaredBelow child parent)
    (found : tree.node? child = some node)
    (free : node.owner? = none) :
    child = parent := by
  rcases Relation.ReflTransGen.cases_head below with same | ⟨next, ⟨-, again, foundAgain, owner⟩, -⟩
  · exact same
  · rw [found] at foundAgain
    cases foundAgain
    rw [free] at owner
    cases owner

/-- What is declared below a statement is below no other one. -/
theorem DeclaredBelow.statement_eq
    {first second : NodeId}
    {firstBody secondBody : Statement}
    (belowFirst : tree.DeclaredBelow id first)
    (belowSecond : tree.DeclaredBelow id second)
    (firstFound : tree.node? first = some (.statement firstBody))
    (secondFound : tree.node? second = some (.statement secondBody)) :
    first = second := by
  have ends : ∀ {statement body}, tree.node? statement = some (.statement body) ->
      ∀ next, ¬ tree.DeclaredOn statement next := by
    rintro statement body found next ⟨-, node, again, owner⟩
    rw [found] at again
    cases again
    cases owner
  exact end_unique (fun _ _ _ one two => one.unique two) belowFirst belowSecond
    (ends firstFound) (ends secondFound)

end Tree

/-! ## What is read off a tree -/

namespace FetchTree

/-- A fetch that was read off a tree, with everything below it. -/
def ReadFrom (tree : Tree) (fetch : FetchTree) : Prop :=
  ∃ fuel, ofNode tree fuel fetch.id = .ok fetch

variable {tree : Tree}

theorem id_of_ofNode
    {fuel : Nat}
    {id : NodeId}
    {fetch : FetchTree}
    (found : ofNode tree fuel id = .ok fetch) :
    fetch.id = id := by
  cases fuel with
  | zero => cases found
  | succ fuel =>
      obtain ⟨body, nested, -, -, rfl⟩ := ofNode_succ_eq_ok.mp found
      rfl

/-- Fetches that were read are declared on the node that lists them. -/
structure Declared
    (tree : Tree)
    (parent : NodeId)
    (fetches : List FetchTree) : Prop where
  read : ∀ fetch ∈ fetches, fetch.ReadFrom tree ∧ tree.FetchedOn fetch.id parent
  nodup : (fetches.map FetchTree.id).Nodup

theorem Declared.tail
    {parent : NodeId}
    {fetch : FetchTree}
    {fetches : List FetchTree}
    (declared : Declared tree parent (fetch :: fetches)) :
    Declared tree parent fetches where
  read other member := declared.read other (List.mem_cons_of_mem _ member)
  nodup := (List.nodup_cons.mp declared.nodup).2

theorem declared_of_mapM
    {fuel : Nat}
    {parent : NodeId}
    {ids : List NodeId}
    {fetches : List FetchTree}
    (found : ids.mapM (ofNode tree fuel) = .ok fetches)
    (nodup : ids.Nodup)
    (on : ∀ id ∈ ids, tree.DeclaredOn id parent) :
    Declared tree parent fetches where
  read fetch member := by
    obtain ⟨id, idMember, read⟩ := Operation.exists_of_mem_mapM found member
    have same := id_of_ofNode read
    subst same
    refine ⟨⟨fuel, read⟩, on _ idMember, ?_⟩
    cases fuel with
    | zero => cases read
    | succ fuel =>
        obtain ⟨body, nested, present, -⟩ := ofNode_succ_eq_ok.mp read
        exact ⟨body, present⟩
  nodup := by
    rw [Operation.map_of_mapM found id_of_ofNode]
    exact nodup

theorem readFrom_mk
    {id : NodeId}
    {field : String}
    {direction : JoinDirection}
    {collection : CollectionFetch}
    {nested : List FetchTree}
    (listed : tree.Listed)
    (read : (FetchTree.mk id field direction collection nested).ReadFrom tree) :
    ∃ body, tree.node? id = some (.fetch body) ∧ body.field = field ∧
      body.direction = direction ∧ body.collection = collection ∧ Declared tree id nested := by
  obtain ⟨fuel, found⟩ := read
  cases fuel with
  | zero => cases found
  | succ fuel =>
      obtain ⟨body, nested, present, nestedFound, same⟩ := ofNode_succ_eq_ok.mp found
      cases same
      have lists := listed id _ present
      exact ⟨body, present, rfl, rfl, rfl,
        declared_of_mapM nestedFound lists.nodup fun _ member => lists.declared member⟩

mutual

/-- All numbers in a fetch belong to fetches below it. -/
theorem fetchedBelow_of_mem_ids
    {other : NodeId}
    (listed : tree.Listed) :
    (fetch : FetchTree) -> fetch.ReadFrom tree -> other ∈ fetch.ids ->
      tree.FetchedBelow other fetch.id
  | .mk id field direction collection nested, read, member => by
      obtain ⟨body, -, -, -, -, declared⟩ := readFrom_mk listed read
      rcases List.mem_cons.mp member with rfl | below
      · exact .refl
      · exact fetchedBelow_of_mem_nestedIds listed nested declared below

theorem fetchedBelow_of_mem_nestedIds
    {other parent : NodeId}
    (listed : tree.Listed) :
    (fetches : List FetchTree) -> Declared tree parent fetches ->
      other ∈ ids.nestedIds fetches -> tree.FetchedBelow other parent
  | [], _, member => by cases member
  | fetch :: fetches, declared, member => by
      obtain ⟨read, on⟩ := declared.read fetch List.mem_cons_self
      rcases List.mem_append.mp member with here | later
      · exact (fetchedBelow_of_mem_ids listed fetch read here).tail on
      · exact fetchedBelow_of_mem_nestedIds listed fetches declared.tail later

end

/-- The numbers in a fetch are not those in its siblings. -/
theorem Declared.not_mem_nestedIds
    {other parent : NodeId}
    {fetch : FetchTree}
    {fetches : List FetchTree}
    (declared : Declared tree parent (fetch :: fetches))
    (listed : tree.Listed)
    (member : other ∈ fetch.ids) :
    other ∉ ids.nestedIds fetches := by
  intro later
  obtain ⟨sibling, siblingMember, there⟩ := mem_nestedIds.mp later
  obtain ⟨read, on⟩ := declared.read fetch List.mem_cons_self
  obtain ⟨siblingRead, siblingOn⟩ := declared.tail.read sibling siblingMember
  have below := (fetchedBelow_of_mem_ids listed fetch read member).declaredBelow
  have belowSibling := (fetchedBelow_of_mem_ids listed sibling siblingRead there).declaredBelow
  have same := below.sibling_eq belowSibling on.1 siblingOn.1
  refine (List.nodup_cons.mp declared.nodup).1 ?_
  rw [same]
  exact List.mem_map_of_mem siblingMember

/-- A fetch is not one of those below it. -/
theorem Declared.id_not_mem
    {parent : NodeId}
    {fetches : List FetchTree}
    (declared : Declared tree parent fetches)
    (listed : tree.Listed) :
    parent ∉ ids.nestedIds fetches := by
  intro member
  obtain ⟨fetch, fetchMember, there⟩ := mem_nestedIds.mp member
  obtain ⟨read, on⟩ := declared.read fetch fetchMember
  have newer := (fetchedBelow_of_mem_ids listed fetch read there).declaredBelow.le
  exact absurd on.1.1 (Nat.not_lt.mpr newer)

end FetchTree

namespace SourceTree

variable {tree : Tree}

/-- Joins that were read are declared on the source that lists them. -/
structure Declared
    (tree : Tree)
    (parent : NodeId)
    (joins : List SourceTree) : Prop where
  read : ∀ join ∈ joins, join.ReadFrom tree ∧ tree.DeclaredOn join.id parent
  nodup : (joins.map SourceTree.id).Nodup

theorem Declared.tail
    {parent : NodeId}
    {join : SourceTree}
    {joins : List SourceTree}
    (declared : Declared tree parent (join :: joins)) :
    Declared tree parent joins where
  read other member := declared.read other (List.mem_cons_of_mem _ member)
  nodup := (List.nodup_cons.mp declared.nodup).2

/-- The joins of a source that was read are declared on it. -/
theorem ReadFrom.declared
    {id : NodeId}
    {body : Source}
    {fetches : List FetchTree}
    {joins : List SourceTree}
    (read : (SourceTree.mk id body fetches joins).ReadFrom tree)
    (listed : tree.Listed) :
    Declared tree id joins := by
  obtain ⟨present, -, joinsRead, -⟩ := readFrom_mk read
  have lists := listed id _ present
  refine ⟨fun join member => ⟨(joinsRead join member).1, ?_⟩, ?_⟩
  · exact lists.declared (List.mem_append_right _ (joinsRead join member).2)
  · obtain ⟨fuel, found⟩ := read
    cases fuel with
    | zero => cases found
    | succ fuel =>
        obtain ⟨other, _, _, again, -, joinsFound, same⟩ := ofNode_succ_eq_ok.mp found
        cases same
        rw [Operation.map_of_mapM joinsFound id_of_ofNode]
        exact (List.nodup_append.mp lists.nodup).2.1

theorem Contains.declaredBelow
    {outer inner : SourceTree}
    (contains : outer.Contains inner)
    (read : outer.ReadFrom tree)
    (listed : tree.Listed) :
    tree.DeclaredBelow inner.id outer.id := by
  induction contains with
  | here => exact .refl
  | inside member _ inductionHypothesis =>
      obtain ⟨joinRead, on⟩ := (read.declared listed).read _ member
      exact (inductionHypothesis joinRead).tail on

/-- The sources below two entries of a list are different. -/
theorem Declared.apart
    {parent : NodeId}
    {join other inner outer : SourceTree}
    {joins : List SourceTree}
    (declared : Declared tree parent (join :: joins))
    (listed : tree.Listed)
    (member : other ∈ joins)
    (below : join.Contains inner)
    (belowOther : other.Contains outer) :
    inner.id ≠ outer.id := by
  intro same
  obtain ⟨read, on⟩ := declared.read join List.mem_cons_self
  obtain ⟨otherRead, otherOn⟩ := declared.tail.read other member
  have first := below.declaredBelow read listed
  have second := belowOther.declaredBelow otherRead listed
  rw [← same] at second
  refine (List.nodup_cons.mp declared.nodup).1 ?_
  rw [first.sibling_eq second on otherOn]
  exact List.mem_map_of_mem member

/-- A source is not one of those below it. -/
theorem Declared.id_ne
    {parent : NodeId}
    {join inner : SourceTree}
    {joins : List SourceTree}
    (declared : Declared tree parent joins)
    (listed : tree.Listed)
    (member : join ∈ joins)
    (below : join.Contains inner) :
    inner.id ≠ parent := by
  rintro rfl
  obtain ⟨read, on⟩ := declared.read join member
  exact absurd on.1 (Nat.not_lt.mpr (below.declaredBelow read listed).le)

end SourceTree
end QueryGraph
