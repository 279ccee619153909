import QueryGraph.Proofs.Tree.Evolution

/-!
# Where the nodes of a reachable tree stand

A path hangs off an older node. A root is listed by its statement, a join by the older
source that it hangs off, and a correlated source by its subquery, which the statement
of the older source encloses. Every call preserves this, because a node and its place in
a list are made together, and lists only grow.
-/

namespace QueryGraph
namespace Tree

/-- A join that hangs off a source of a statement. -/
def JoinOf
    (tree : Tree)
    (parent statement child : NodeId) : Prop :=
  ∃ body field direction mode on, tree.node? child = some (.source body) ∧
    body.statement = statement ∧ body.kind = .join parent field direction mode on

/-- Where a source of a statement has to stand. -/
def PlacesKind
    (tree : Tree)
    (id statement : NodeId) : SourceKind -> Prop
  | .root _ => ∃ body, tree.node? statement = some (.statement body) ∧ id ∈ body.roots
  | .join parent _ _ _ _ =>
      parent.index < id.index ∧ ∃ above, tree.node? parent = some (.source above) ∧
        above.isCorrelated = false ∧ above.statement = statement ∧ id ∈ above.joins
  | .correlated outer =>
      outer.index < id.index ∧ ∃ body around source,
        tree.node? statement = some (.statement body) ∧ id ∈ body.correlations ∧
        body.parent = some around ∧ tree.node? outer = some (.source source) ∧
        tree.encloses source.statement around = .ok true

/-- Where a node has to stand. -/
def Places
    (tree : Tree)
    (id : NodeId) : Node -> Prop
  | .path parent _ => parent.index < id.index ∧ tree.HasPathLike parent
  | .treat target _ => target.index < id.index ∧ tree.HasPathLike target
  | .source body =>
      tree.PlacesKind id body.statement body.kind ∧
        (body.isCorrelated = true -> body.joins = [] ∧ body.fetches = []) ∧
        ∀ child ∈ body.joins, tree.JoinOf id body.statement child
  | _ => True

/-- A tree in which every node stands where it has to. -/
def Placed (tree : Tree) : Prop :=
  ∀ id node, tree.node? id = some node -> tree.Places id node

/-! ## Lists only grow -/

/-- The lists of a node that the places of other nodes depend on are still contained in
those of a later version. -/
def Lists : Node -> Node -> Prop
  | .statement older, .statement newer =>
      older.roots ⊆ newer.roots ∧ older.correlations ⊆ newer.correlations
  | .source older, .source newer => older.joins ⊆ newer.joins
  | _, _ => True

theorem lists_refl (node : Node) : Lists node node := by
  cases node <;> simp [Lists]

/-- Every node of a tree is still there, has kept its shape, and lists at least what it
listed. -/
def Extends (before after : Tree) : Prop :=
  ∀ id node, before.node? id = some node ->
    ∃ later, after.node? id = some later ∧ later.shape = node.shape ∧ Lists node later

namespace Extends

theorem evolves
    {before after : Tree}
    (growth : before.Extends after) :
    before.Evolves after := by
  intro id node found
  obtain ⟨later, foundLater, same, -⟩ := growth id node found
  exact ⟨later, foundLater, same⟩

theorem push
    (tree : Tree)
    (added : Node) :
    tree.Extends (tree.push added) := by
  intro id node found
  exact ⟨node, node?_push_of_some added found, rfl, lists_refl node⟩

theorem replace
    {tree : Tree}
    {id : NodeId}
    {node changed : Node}
    (found : tree.node? id = some node)
    (same : changed.shape = node.shape)
    (lists : Lists node changed) :
    tree.Extends (tree.replace id changed) := by
  intro other body foundOther
  by_cases here : other = id
  · rw [here, found] at foundOther
    cases foundOther
    exact ⟨changed, by rw [here, node?_replace_self changed found], same, lists⟩
  · exact ⟨body, by rw [node?_replace_of_ne changed here, foundOther], rfl, lists_refl body⟩

theorem trans
    {first second third : Tree}
    (earlier : first.Extends second)
    (later : second.Extends third) :
    first.Extends third := by
  intro id node found
  obtain ⟨between, foundBetween, sameBetween, listsBetween⟩ := earlier id node found
  obtain ⟨last, foundLast, sameLast, listsLast⟩ := later id between foundBetween
  refine ⟨last, foundLast, sameLast.trans sameBetween, ?_⟩
  cases node with
  | statement older =>
      obtain ⟨middle, rfl, -, -⟩ := Node.shape_eq_statement sameBetween
      obtain ⟨newer, rfl, -, -⟩ := Node.shape_eq_statement sameLast
      exact ⟨List.Subset.trans listsBetween.1 listsLast.1,
        List.Subset.trans listsBetween.2 listsLast.2⟩
  | source older =>
      obtain ⟨middle, rfl, -, -⟩ := Node.shape_eq_source sameBetween
      obtain ⟨newer, rfl, -, -⟩ := Node.shape_eq_source sameLast
      exact List.Subset.trans listsBetween listsLast
  | _ => trivial

variable {before after : Tree}

theorem statement
    {id : NodeId}
    {body : Statement}
    (growth : before.Extends after)
    (found : before.node? id = some (.statement body)) :
    ∃ later : Statement, after.node? id = some (.statement later) ∧
      later.parent = body.parent ∧ body.roots ⊆ later.roots ∧
      body.correlations ⊆ later.correlations := by
  obtain ⟨node, foundLater, same, lists⟩ := growth id _ found
  obtain ⟨later, rfl, -, sameParent⟩ := Node.shape_eq_statement same
  exact ⟨later, foundLater, sameParent, lists.1, lists.2⟩

theorem source
    {id : NodeId}
    {body : Source}
    (growth : before.Extends after)
    (found : before.node? id = some (.source body)) :
    ∃ later : Source, after.node? id = some (.source later) ∧
      later.statement = body.statement ∧ later.kind.shape = body.kind.shape ∧
      body.joins ⊆ later.joins := by
  obtain ⟨node, foundLater, same, lists⟩ := growth id _ found
  obtain ⟨later, rfl, sameStatement, sameKind⟩ := Node.shape_eq_source same
  exact ⟨later, foundLater, sameStatement, sameKind, lists⟩

theorem hasPathLike
    {id : NodeId}
    (growth : before.Extends after)
    (found : before.HasPathLike id) :
    after.HasPathLike id := by
  obtain ⟨node, present, isPathLike⟩ := found
  obtain ⟨later, presentLater, same, -⟩ := growth id node present
  refine ⟨later, presentLater, ?_⟩
  cases node with
  | source body =>
      obtain ⟨newer, rfl, -, -⟩ := Node.shape_eq_source same
      rfl
  | path parent field =>
      rw [Node.shape_eq_path same]
      rfl
  | treat target asType =>
      rw [Node.shape_eq_treat same]
      rfl
  | _ => cases isPathLike

theorem joinOf
    {parent statement child : NodeId}
    (growth : before.Extends after)
    (found : before.JoinOf parent statement child) :
    after.JoinOf parent statement child := by
  obtain ⟨body, field, direction, mode, on, present, isOf, isJoin⟩ := found
  obtain ⟨later, presentLater, sameStatement, sameKind, -⟩ := growth.source present
  rw [isJoin] at sameKind
  obtain ⟨laterOn, laterKind⟩ := SourceKind.shape_eq_join sameKind
  exact ⟨later, field, direction, mode, laterOn, presentLater, sameStatement.trans isOf, laterKind⟩

/-- The place of a source does not depend on the condition of a join. -/
theorem placesKind
    {id statement : NodeId}
    {kind later : SourceKind}
    (growth : before.Extends after)
    (same : later.shape = kind.shape)
    (places : before.PlacesKind id statement kind) :
    after.PlacesKind id statement later := by
  cases kind with
  | root recordType =>
      rw [SourceKind.shape_eq_root same]
      obtain ⟨body, found, member⟩ := places
      obtain ⟨newer, foundLater, -, roots, -⟩ := growth.statement found
      exact ⟨newer, foundLater, roots member⟩
  | join parent field direction mode on =>
      obtain ⟨laterOn, rfl⟩ := SourceKind.shape_eq_join same
      obtain ⟨older, above, found, declared, sameStatement, member⟩ := places
      obtain ⟨newer, foundLater, laterStatement, sameKind, joins⟩ := growth.source found
      exact ⟨older, newer, foundLater, (Source.isCorrelated_of_shape sameKind).trans declared,
        laterStatement.trans sameStatement, joins member⟩
  | correlated outer =>
      rw [SourceKind.shape_eq_correlated same]
      obtain ⟨older, body, around, source, found, member, within, outerFound, visible⟩ := places
      obtain ⟨newer, foundLater, sameParent, -, correlations⟩ := growth.statement found
      obtain ⟨newerSource, outerLater, sameStatement, -, -⟩ := growth.source outerFound
      refine ⟨older, newer, around, newerSource, foundLater, correlations member,
        sameParent.trans within, outerLater, ?_⟩
      rw [sameStatement]
      exact growth.evolves.encloses visible

/-- A node that stays as it is stays where it has to stand. -/
theorem places
    {id : NodeId}
    {node : Node}
    (growth : before.Extends after)
    (places : before.Places id node) :
    after.Places id node := by
  cases node with
  | path parent field => exact ⟨places.1, growth.hasPathLike places.2⟩
  | treat target asType => exact ⟨places.1, growth.hasPathLike places.2⟩
  | source body =>
      exact ⟨growth.placesKind rfl places.1, places.2.1,
        fun child member => growth.joinOf (places.2.2 child member)⟩
  | _ => trivial

end Extends

/-! ## Changes preserve the places -/

theorem Adopts.lists
    {tree : Tree}
    {parent : NodeId}
    {node child grown : Node}
    (adopts : tree.Adopts parent node child grown) :
    Lists node grown := by
  cases adopts <;> simp [Lists]

theorem Alters.lists
    {tree : Tree}
    {node changed : Node}
    (alters : tree.Alters node changed) :
    Lists node changed := by
  cases alters <;> simp [Lists]

theorem Change.growth
    {before after : Tree}
    (change : before.Change after) :
    before.Extends after := by
  cases change with
  | added node loose => exact .push before node
  | adopted parent node child grown found free adopts =>
      exact (Extends.push before child).trans
        (.replace (node?_push_of_some child found) adopts.shape_eq adopts.lists)
  | altered id node changed found free alters =>
      exact .replace found alters.shape_eq alters.lists

theorem Loose.places
    {tree after : Tree}
    {node : Node}
    (loose : tree.Loose node)
    (growth : tree.Extends after) :
    after.Places ⟨tree.size⟩ node := by
  cases loose with
  | path parent field found =>
      obtain ⟨above, present, isPathLike⟩ := found
      exact ⟨lt_size_of_node? present, growth.hasPathLike ⟨above, present, isPathLike⟩⟩
  | treat target asType found =>
      obtain ⟨above, present, isPathLike⟩ := found
      exact ⟨lt_size_of_node? present, growth.hasPathLike ⟨above, present, isPathLike⟩⟩
  | _ => trivial

/-- A node that is adopted stands where it has to. -/
theorem Adopts.places_child
    {tree after : Tree}
    {parent : NodeId}
    {node child grown : Node}
    (adopts : tree.Adopts parent node child grown)
    (found : tree.node? parent = some node)
    (growth : tree.Extends after)
    (foundGrown : after.node? parent = some grown) :
    after.Places ⟨tree.size⟩ child := by
  have older : parent.index < tree.size := lt_size_of_node? found
  cases adopts with
  | root body recordType =>
      exact ⟨⟨_, foundGrown, by simp⟩, by simp [Source.isCorrelated], by simp⟩
  | join body field direction mode declared =>
      exact ⟨⟨older, _, foundGrown, declared, rfl, by simp⟩, by simp [Source.isCorrelated],
        by simp⟩
  | correlation body outer around source isSubquery outerFound within visible =>
      obtain ⟨newer, outerLater, sameStatement, -, -⟩ := growth.source outerFound
      refine ⟨⟨lt_size_of_node? outerFound, _, around, newer, foundGrown, by simp, within,
        outerLater, ?_⟩, by simp, by simp⟩
      rw [sameStatement]
      exact growth.evolves.encloses visible
  | _ => trivial

/-- A node that adopts another one still stands where it has to. -/
theorem Adopts.places_grown
    {tree after : Tree}
    {parent : NodeId}
    {node child grown : Node}
    (adopts : tree.Adopts parent node child grown)
    (places : tree.Places parent node)
    (growth : tree.Extends after)
    (foundChild : after.node? ⟨tree.size⟩ = some child) :
    after.Places parent grown := by
  cases adopts with
  | join body field direction mode declared =>
      refine ⟨growth.placesKind rfl places.1, ?_, ?_⟩
      · intro correlated
        simp [Source.isCorrelated] at correlated declared
        simp [declared] at correlated
      · intro child member
        rcases List.mem_append.mp member with old | new
        · exact growth.joinOf (places.2.2 child old)
        · rw [List.mem_singleton.mp new]
          exact ⟨_, field, direction, mode, none, foundChild, rfl, rfl⟩
  | fetchOfSource body field direction collection declared =>
      refine ⟨growth.placesKind rfl places.1, ?_, fun child member =>
        growth.joinOf (places.2.2 child member)⟩
      intro correlated
      simp [Source.isCorrelated] at correlated declared
      simp [declared] at correlated
  | _ => trivial

/-- A node that is altered still stands where it has to. -/
theorem Alters.places
    {tree after : Tree}
    {id : NodeId}
    {node changed : Node}
    (alters : tree.Alters node changed)
    (places : tree.Places id node)
    (growth : tree.Extends after) :
    after.Places id changed := by
  cases alters with
  | aliasHint body name => exact growth.places places
  | condition body parent condition field direction mode on isJoin found =>
      refine ⟨growth.placesKind ?_ places.1, by simp [Source.isCorrelated], fun child member =>
        growth.joinOf (places.2.2 child member)⟩
      rw [isJoin]
      rfl
  | _ => trivial

theorem Placed.change
    {before after : Tree}
    (placed : before.Placed)
    (change : before.Change after) :
    after.Placed := by
  have growth := change.growth
  intro id node found
  cases change.origin found with
  | kept foundBefore => exact growth.places (placed id node foundBefore)
  | added new loose =>
      rw [new]
      exact loose.places growth
  | adopted parent older grown new foundParent adopts foundGrown =>
      rw [new]
      exact adopts.places_child foundParent growth foundGrown
  | grown older child foundOlder adopts foundChild =>
      exact adopts.places_grown (placed id older foundOlder) growth foundChild
  | altered older foundOlder alters => exact alters.places (placed id older foundOlder) growth

theorem Placed.changes
    {before after : Tree}
    (placed : before.Placed)
    (changes : before.Changes after) :
    after.Placed := by
  induction changes with
  | refl => exact placed
  | tail earlier change inductionHypothesis => exact inductionHypothesis.change change

/-- The places are a matter of the nodes alone. -/
theorem Placed.of_nodes
    {before after : Tree}
    (placed : before.Placed)
    (nodes : after.nodes = before.nodes) :
    after.Placed := by
  have same := node?_eq_of_nodes nodes
  have growth : before.Extends after := fun id node found =>
    ⟨node, by rw [same id, found], rfl, lists_refl node⟩
  intro id node found
  rw [same id] at found
  exact growth.places (placed id node found)

/-- Every node of a reachable tree stands where it has to. -/
theorem Reachable.placed
    {tree : Tree}
    (reachable : tree.Reachable) :
    tree.Placed := by
  refine reachable.induction_of_nodes ?_ ?_ ?_
  · intro kind id node found
    obtain rfl := node?_ofKind found
    trivial
  · exact fun before after change placed => placed.change change
  · exact fun before after nodes placed => placed.of_nodes nodes

/-! ## Statements inside the statements they were declared in

A subquery is an expression and may be used anywhere. Where every statement around an
occurrence stands inside the statement it was declared in, whatever a correlated source
stands for belongs to a statement around the occurrence. -/

/-- Among some statements, each that was declared in a statement comes with that one. -/
def Nested
    (tree : Tree)
    (statements : List NodeId) : Prop :=
  ∀ id ∈ statements, ∀ body around, tree.node? id = some (.statement body) ->
    body.parent = some around -> around ∈ statements

namespace Nested

variable {tree : Tree} {statements : List NodeId}

/-- Nested statements contain every statement that encloses one of them. -/
theorem of_enclosesFrom
    {ancestor id : NodeId}
    {fuel : Nat}
    (nested : tree.Nested statements)
    (encloses : tree.enclosesFrom ancestor fuel id = .ok true)
    (member : id ∈ statements) :
    ancestor ∈ statements := by
  induction fuel generalizing id with
  | zero => cases encloses
  | succ fuel inductionHypothesis =>
      unfold enclosesFrom at encloses
      by_cases here : id = ancestor
      · rwa [here] at member
      · rw [if_neg here] at encloses
        cases found : tree.statement id with
        | error error =>
            rw [found] at encloses
            cases encloses
        | ok body =>
            rw [found] at encloses
            cases parent : body.parent with
            | none =>
                simp only [parent] at encloses
                cases encloses
            | some around =>
                simp only [parent] at encloses
                have aroundMember := nested id member body around (statement_eq_ok.mp found) parent
                exact inductionHypothesis encloses aroundMember

/-- Nested statements contain the statement of whatever a source of one of them stands for. -/
theorem of_resolveFrom
    {id outer : NodeId}
    {body source : Source}
    {fuel : Nat}
    (nested : tree.Nested statements)
    (placed : tree.Placed)
    (found : tree.node? id = some (.source body))
    (member : body.statement ∈ statements)
    (resolved : tree.resolveFrom fuel id = .ok outer)
    (outerFound : tree.node? outer = some (.source source)) :
    source.statement ∈ statements := by
  induction fuel generalizing id body with
  | zero => cases resolved
  | succ fuel inductionHypothesis =>
      have endsHere (same : outer = id) : source.statement ∈ statements := by
        rw [same, found] at outerFound
        cases outerFound
        exact member
      unfold resolveFrom at resolved
      rw [source_eq_ok.mpr found] at resolved
      cases kind : body.kind with
      | root recordType =>
          simp only [kind] at resolved
          cases resolved
          exact endsHere rfl
      | join parent field direction mode on =>
          simp only [kind] at resolved
          cases resolved
          exact endsHere rfl
      | correlated next =>
          simp only [kind] at resolved
          have places := (placed id _ found).1
          rw [kind] at places
          obtain ⟨-, statement, around, nextBody, statementFound, -, parent, nextFound, encloses⟩ :=
            places
          have aroundMember := nested body.statement member statement around statementFound parent
          have nextAround := nested.of_enclosesFrom encloses aroundMember
          exact inductionHypothesis nextFound nextAround resolved

end Nested
end Tree
end QueryGraph
