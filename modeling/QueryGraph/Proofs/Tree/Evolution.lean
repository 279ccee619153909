import QueryGraph.Proofs.Tree.Holds

/-!
# What stays the same while a tree changes

A node keeps its shape: what kind of node it is and what it refers to, up to the lists
of what was declared below it or said about it later. Ways that only follow shapes lead
to the same place in every later tree. Ways through the lists do so where every node
that they pass is the same node as before.
-/

namespace QueryGraph

/-- A source kind without the condition of a join. -/
def SourceKind.shape : SourceKind -> SourceKind
  | .join parent field direction mode _ => .join parent field direction mode none
  | other => other

/-- A node without what may still be declared below it or said about it. -/
def Node.shape : Node -> Node
  | .statement body => .statement { kind := body.kind, parent := body.parent }
  | .source body => .source { statement := body.statement, kind := body.kind.shape }
  | .fetch body => .fetch { body with fetches := [] }
  | other => other

namespace Node

theorem shape_eq_statement
    {node : Node}
    {body : Statement}
    (same : node.shape = (Node.statement body).shape) :
    ∃ later : Statement, node = .statement later ∧ later.kind = body.kind ∧
      later.parent = body.parent := by
  cases node with
  | statement later =>
      simp only [shape, statement.injEq, Statement.mk.injEq] at same
      exact ⟨later, rfl, same.1, same.2.1⟩
  | _ => cases same

theorem shape_eq_source
    {node : Node}
    {body : Source}
    (same : node.shape = (Node.source body).shape) :
    ∃ later : Source, node = .source later ∧ later.statement = body.statement ∧
      later.kind.shape = body.kind.shape := by
  cases node with
  | source later =>
      simp only [shape, source.injEq, Source.mk.injEq] at same
      exact ⟨later, rfl, same.1, same.2.1⟩
  | _ => cases same

theorem shape_eq_path
    {node : Node}
    {parent : NodeId}
    {field : String}
    (same : node.shape = (Node.path parent field).shape) :
    node = .path parent field := by
  cases node with
  | path => exact same
  | _ => cases same

theorem shape_eq_treat
    {node : Node}
    {target : NodeId}
    {asType : String}
    (same : node.shape = (Node.treat target asType).shape) :
    node = .treat target asType := by
  cases node with
  | treat => exact same
  | _ => cases same

end Node

theorem SourceKind.shape_eq_join
    {kind : SourceKind}
    {parent : NodeId}
    {field : String}
    {direction : JoinDirection}
    {mode : JoinMode}
    {on : Option NodeId}
    (same : kind.shape = (SourceKind.join parent field direction mode on).shape) :
    ∃ later, kind = .join parent field direction mode later := by
  cases kind with
  | join parent field direction mode later =>
      cases same
      exact ⟨later, rfl⟩
  | _ => cases same

theorem SourceKind.shape_eq_root
    {kind : SourceKind}
    {recordType : String}
    (same : kind.shape = (SourceKind.root recordType).shape) :
    kind = .root recordType := by
  cases kind with
  | root => exact same
  | _ => cases same

theorem SourceKind.shape_eq_correlated
    {kind : SourceKind}
    {outer : NodeId}
    (same : kind.shape = (SourceKind.correlated outer).shape) :
    kind = .correlated outer := by
  cases kind with
  | correlated => exact same
  | _ => cases same

/-- Whether a source stands for another one belongs to its shape. -/
theorem Source.isCorrelated_of_shape
    {body later : Source}
    (same : later.kind.shape = body.kind.shape) :
    later.isCorrelated = body.isCorrelated := by
  unfold isCorrelated
  cases kind : body.kind with
  | root recordType =>
      rw [kind] at same
      rw [SourceKind.shape_eq_root same]
  | join parent field direction mode on =>
      rw [kind] at same
      obtain ⟨laterOn, laterKind⟩ := SourceKind.shape_eq_join same
      rw [laterKind]
  | correlated outer =>
      rw [kind] at same
      rw [SourceKind.shape_eq_correlated same]

namespace Tree

/-- Every node of a tree is still there in a later one and has kept its shape. -/
def Evolves (before after : Tree) : Prop :=
  ∀ id node, before.node? id = some node ->
    ∃ later, after.node? id = some later ∧ later.shape = node.shape

namespace Evolves

theorem of_eq
    {before after : Tree}
    (same : ∀ id, after.node? id = before.node? id) :
    before.Evolves after := by
  intro id node found
  exact ⟨node, by rw [same id, found], rfl⟩

theorem trans
    {first second third : Tree}
    (earlier : first.Evolves second)
    (later : second.Evolves third) :
    first.Evolves third := by
  intro id node found
  obtain ⟨between, foundBetween, sameBetween⟩ := earlier id node found
  obtain ⟨last, foundLast, sameLast⟩ := later id between foundBetween
  exact ⟨last, foundLast, sameLast.trans sameBetween⟩

theorem size_le
    {before after : Tree}
    (evolves : before.Evolves after) :
    before.size ≤ after.size := by
  rcases Nat.eq_zero_or_pos before.size with empty | positive
  · omega
  · have last : (⟨before.size - 1⟩ : NodeId).index < before.size := by
      change before.size - 1 < before.size
      omega
    obtain ⟨node, found⟩ := node?_isSome_of_lt last
    obtain ⟨later, foundLater, -⟩ := evolves _ node found
    have below := lt_size_of_node? foundLater
    change before.size - 1 < after.size at below
    omega

/-- A node is replaced by one of the same shape. -/
theorem replace
    {tree : Tree}
    {id : NodeId}
    {node changed : Node}
    (found : tree.node? id = some node)
    (same : changed.shape = node.shape) :
    tree.Evolves (tree.replace id changed) := by
  intro other body foundOther
  by_cases here : other = id
  · rw [here, found] at foundOther
    cases foundOther
    exact ⟨changed, by rw [here, node?_replace_self changed found], same⟩
  · exact ⟨body, by rw [node?_replace_of_ne changed here, foundOther], rfl⟩

theorem push
    (tree : Tree)
    (added : Node) :
    tree.Evolves (tree.push added) := by
  intro id node found
  exact ⟨node, node?_push_of_some added found, rfl⟩

end Evolves

theorem Adopts.shape_eq
    {tree : Tree}
    {parent : NodeId}
    {node child grown : Node}
    (adopts : tree.Adopts parent node child grown) :
    grown.shape = node.shape := by
  cases adopts <;> rfl

theorem Alters.shape_eq
    {tree : Tree}
    {node changed : Node}
    (alters : tree.Alters node changed) :
    changed.shape = node.shape := by
  cases alters with
  | condition body parent condition field direction mode on isJoin found =>
      simp [Node.shape, isJoin, SourceKind.shape]
  | _ => rfl

theorem Change.evolves
    {before after : Tree}
    (change : before.Change after) :
    before.Evolves after := by
  cases change with
  | added node loose => exact .push before node
  | adopted parent node child grown found free adopts =>
      exact (Evolves.push before child).trans
        (.replace (node?_push_of_some child found) adopts.shape_eq)
  | altered id node changed found free alters => exact .replace found alters.shape_eq

theorem Changes.evolves
    {before after : Tree}
    (changes : before.Changes after) :
    before.Evolves after := by
  induction changes with
  | refl => exact .of_eq fun _ => rfl
  | tail earlier change inductionHypothesis => exact inductionHypothesis.trans change.evolves

theorem evolves_perform (tree : Tree) (call : TreeCall) : tree.Evolves (tree.perform call) := by
  rcases tree.perform_cases call with changes | ⟨node, _, hold, _, _, _, _, _, done⟩
  · exact changes.evolves
  · rw [done]
    exact .of_eq fun _ => rfl

theorem evolves_performAll (tree : Tree) (calls : List TreeCall) :
    tree.Evolves (tree.performAll calls) := by
  induction calls generalizing tree with
  | nil => exact .of_eq fun _ => rfl
  | cons call calls inductionHypothesis =>
      exact (tree.evolves_perform call).trans (inductionHypothesis (tree.perform call))

/-! ## Where a node comes from -/

section Origin

variable {before after : Tree} {id : NodeId} {node : Node}

/-- Where a node of a changed tree comes from. It is as it was, it has just been added, or
it is an older one that adopted what was added or was altered in place. -/
inductive Origin (before after : Tree) (id : NodeId) (node : Node) : Prop
  | kept (found : before.node? id = some node)
  | added
      (new : id = ⟨before.size⟩)
      (loose : before.Loose node)
  | adopted
      (parent : NodeId)
      (older grown : Node)
      (new : id = ⟨before.size⟩)
      (found : before.node? parent = some older)
      (adopts : before.Adopts parent older node grown)
      (foundGrown : after.node? parent = some grown)
  | grown
      (older child : Node)
      (found : before.node? id = some older)
      (adopts : before.Adopts id older child node)
      (foundChild : after.node? ⟨before.size⟩ = some child)
  | altered
      (older : Node)
      (found : before.node? id = some older)
      (alters : before.Alters older node)

/-- A node that was just added, or one of those there were. -/
theorem node?_push_cases
    {added : Node}
    (found : (before.push added).node? id = some node) :
    before.node? id = some node ∨ id = ⟨before.size⟩ ∧ node = added := by
  rw [node?_push] at found
  by_cases new : id.index = before.size
  · rw [if_pos new] at found
    cases found
    exact Or.inr ⟨by rw [← new], rfl⟩
  · rw [if_neg new] at found
    exact Or.inl found

theorem Change.origin
    (change : before.Change after)
    (found : after.node? id = some node) :
    before.Origin after id node := by
  cases change with
  | added added loose =>
      rcases node?_push_cases found with kept | ⟨new, rfl⟩
      · exact .kept kept
      · exact .added new loose
  | adopted parent older child grown parentFound free adopts =>
      have pushed := node?_push_of_some child parentFound
      have foundGrown := node?_replace_self grown pushed
      have differs : (⟨before.size⟩ : NodeId) ≠ parent := by
        rintro rfl
        exact Nat.lt_irrefl _ (lt_size_of_node? parentFound)
      by_cases here : id = parent
      · subst here
        rw [foundGrown] at found
        cases found
        refine .grown older child parentFound adopts ?_
        rw [node?_replace_of_ne _ differs, node?_push_size]
      · rw [node?_replace_of_ne grown here] at found
        rcases node?_push_cases found with kept | ⟨new, rfl⟩
        · exact .kept kept
        · exact .adopted parent older grown new parentFound adopts foundGrown
  | altered changed older newer changedFound free alters =>
      by_cases here : id = changed
      · subst here
        rw [node?_replace_self newer changedFound] at found
        cases found
        exact .altered older changedFound alters
      · rw [node?_replace_of_ne newer here] at found
        exact .kept found

end Origin

/-- What is a matter of the nodes alone and kept by every change holds of every reachable
tree. -/
theorem Reachable.induction_of_nodes
    {motive : Tree -> Prop}
    {tree : Tree}
    (reachable : tree.Reachable)
    (start : ∀ kind, motive (ofKind kind))
    (change : ∀ before after, before.Change after -> motive before -> motive after)
    (nodes : ∀ before after, after.nodes = before.nodes -> motive before -> motive after) :
    motive tree := by
  have run : ∀ {before after : Tree}, before.Changes after -> motive before -> motive after := by
    intro before after changes holds
    induction changes with
    | refl => exact holds
    | tail earlier last inductionHypothesis => exact change _ _ last inductionHypothesis
  refine reachable.induction start fun before call holds => ?_
  rcases before.perform_cases call with changes | ⟨node, _, hold, _, _, _, _, _, done⟩
  · exact run changes holds
  · rw [done]
    exact nodes before _ (nodes_setHold before node hold) holds

/-! ## Ways that follow shapes -/

section Shapes

variable {before after : Tree} {id : NodeId}

theorem Evolves.source
    {body : Source}
    (evolves : before.Evolves after)
    (found : before.source id = .ok body) :
    ∃ later, after.source id = .ok later ∧ later.statement = body.statement ∧
      later.kind.shape = body.kind.shape := by
  obtain ⟨node, foundLater, same⟩ := evolves id _ (source_eq_ok.mp found)
  obtain ⟨later, rfl, sameStatement, sameKind⟩ := Node.shape_eq_source same
  exact ⟨later, source_eq_ok.mpr foundLater, sameStatement, sameKind⟩

theorem Evolves.routeOfNode
    {route : Route}
    {fuel more : Nat}
    (evolves : before.Evolves after)
    (enough : fuel ≤ more)
    (found : Route.ofNode before fuel id = .ok route) :
    Route.ofNode after more id = .ok route := by
  induction fuel generalizing more id route with
  | zero => cases found
  | succ fuel inductionHypothesis =>
      obtain ⟨more, rfl⟩ : ∃ rest, more = rest + 1 := ⟨more - 1, by omega⟩
      have enough : fuel ≤ more := by omega
      have mapped : ∀ {next : NodeId} {wrap : Route -> Route},
          (Route.ofNode before fuel next).map wrap = .ok route ->
            (Route.ofNode after more next).map wrap = .ok route := by
        intro next wrap foundNext
        cases nextRoute : Route.ofNode before fuel next with
        | error error =>
            rw [nextRoute] at foundNext
            cases foundNext
        | ok inner =>
            rw [nextRoute] at foundNext
            rw [inductionHypothesis enough nextRoute]
            exact foundNext
      unfold Route.ofNode at found ⊢
      cases nodeFound : before.node id with
      | error error =>
          rw [nodeFound] at found
          cases found
      | ok node =>
          obtain ⟨later, foundLater, same⟩ := evolves id node (node_eq_ok.mp nodeFound)
          rw [nodeFound] at found
          rw [node_eq_ok.mpr foundLater]
          cases node with
          | source body =>
              obtain ⟨laterBody, rfl, -, sameKind⟩ := Node.shape_eq_source same
              cases kind : body.kind with
              | root recordType =>
                  rw [kind] at sameKind
                  simp only [kind] at found
                  simp only [SourceKind.shape_eq_root sameKind]
                  exact found
              | correlated outer =>
                  rw [kind] at sameKind
                  simp only [kind] at found
                  simp only [SourceKind.shape_eq_correlated sameKind]
                  exact found
              | join parent field direction mode on =>
                  rw [kind] at sameKind
                  obtain ⟨laterOn, laterKind⟩ := SourceKind.shape_eq_join sameKind
                  simp only [kind] at found
                  simp only [laterKind]
                  exact mapped found
          | path parent field =>
              rw [Node.shape_eq_path same]
              exact mapped found
          | treat target asType =>
              rw [Node.shape_eq_treat same]
              exact mapped found
          | _ => cases found

/-- How a node is reached never changes. -/
theorem Evolves.route
    {route : Route}
    (evolves : before.Evolves after)
    (found : before.route id = .ok route) :
    after.route id = .ok route :=
  evolves.routeOfNode (Nat.succ_le_succ evolves.size_le) found

/-- A path has a chain where the node that it reads from has one. -/
theorem chainOfNode_succ_eq_ok
    {tree : Tree}
    {fuel : Nat}
    {chain : PathChain} :
    PathChain.ofNode tree (fuel + 1) id = .ok chain ↔
      (∃ body, tree.node? id = some (.source body) ∧ chain = ⟨[], id, body⟩) ∨
      ∃ next inner, ((∃ name, tree.node? id = some (.path next name)) ∨
          ∃ asType, tree.node? id = some (.treat next asType)) ∧
        PathChain.ofNode tree fuel next = .ok inner ∧
        chain = { inner with below := next :: inner.below } := by
  have extended (next : NodeId) : (PathChain.ofNode tree fuel next).map
        (fun chain => { chain with below := next :: chain.below }) = .ok chain ↔
      ∃ inner, PathChain.ofNode tree fuel next = .ok inner ∧
        chain = { inner with below := next :: inner.below } := by
    cases PathChain.ofNode tree fuel next with
    | error error => simp [Except.map]
    | ok inner => simp [Except.map, eq_comm]
  rw [PathChain.ofNode]
  cases nodeFound : tree.node id with
  | error error =>
      have absent (node : Node) : tree.node? id ≠ some node := by
        intro contrary
        rw [node_eq_ok.mpr contrary] at nodeFound
        cases nodeFound
      simp [absent]
  | ok node =>
      have found := node_eq_ok.mp nodeFound
      cases node with
      | source body => simp [found, eq_comm]
      | path parent name => simp [found, extended]
      | treat target asType => simp [found, extended]
      | _ => simp [found]

theorem Evolves.chainOfNode
    {chain : PathChain}
    {fuel more : Nat}
    (evolves : before.Evolves after)
    (enough : fuel ≤ more)
    (found : PathChain.ofNode before fuel id = .ok chain) :
    ∃ source : Source, source.statement = chain.source.statement ∧
      PathChain.ofNode after more id = .ok { chain with source := source } := by
  induction fuel generalizing more id chain with
  | zero => cases found
  | succ fuel inductionHypothesis =>
      obtain ⟨more, rfl⟩ : ∃ rest, more = rest + 1 := ⟨more - 1, by omega⟩
      rcases chainOfNode_succ_eq_ok.mp found with
        ⟨body, present, rfl⟩ | ⟨next, inner, passed, nextFound, rfl⟩
      · obtain ⟨later, foundLater, same⟩ := evolves id _ present
        obtain ⟨laterBody, rfl, sameStatement, -⟩ := Node.shape_eq_source same
        exact ⟨laterBody, sameStatement,
          chainOfNode_succ_eq_ok.mpr (Or.inl ⟨laterBody, foundLater, rfl⟩)⟩
      · obtain ⟨source, sameStatement, nextLater⟩ :=
          inductionHypothesis (show fuel ≤ more by omega) nextFound
        have passedLater : (∃ name, after.node? id = some (.path next name)) ∨
            ∃ asType, after.node? id = some (.treat next asType) := by
          rcases passed with ⟨name, present⟩ | ⟨asType, present⟩
          · obtain ⟨later, foundLater, same⟩ := evolves id _ present
            rw [Node.shape_eq_path same] at foundLater
            exact Or.inl ⟨name, foundLater⟩
          · obtain ⟨later, foundLater, same⟩ := evolves id _ present
            rw [Node.shape_eq_treat same] at foundLater
            exact Or.inr ⟨asType, foundLater⟩
        exact ⟨source, sameStatement,
          chainOfNode_succ_eq_ok.mpr (Or.inr ⟨next, _, passedLater, nextLater, rfl⟩)⟩

/-- The nodes that a path passes never change, nor does the statement of its source. -/
theorem Evolves.pathChain
    {chain : PathChain}
    (evolves : before.Evolves after)
    (found : before.pathChain id = .ok chain) :
    ∃ source : Source, source.statement = chain.source.statement ∧
      after.pathChain id = .ok { chain with source := source } :=
  evolves.chainOfNode (Nat.succ_le_succ evolves.size_le) found

theorem Evolves.resolveFrom
    {outer : NodeId}
    {fuel more : Nat}
    (evolves : before.Evolves after)
    (enough : fuel ≤ more)
    (found : before.resolveFrom fuel id = .ok outer) :
    after.resolveFrom more id = .ok outer := by
  induction fuel generalizing more id with
  | zero => cases found
  | succ fuel inductionHypothesis =>
      obtain ⟨more, rfl⟩ : ∃ rest, more = rest + 1 := ⟨more - 1, by omega⟩
      have enough : fuel ≤ more := by omega
      unfold Tree.resolveFrom at found ⊢
      cases sourceFound : before.source id with
      | error error =>
          rw [sourceFound] at found
          cases found
      | ok body =>
          obtain ⟨later, foundLater, -, sameKind⟩ := evolves.source sourceFound
          rw [sourceFound] at found
          rw [foundLater]
          cases kind : body.kind with
          | root recordType =>
              rw [kind] at sameKind
              simp only [kind] at found
              simp only [SourceKind.shape_eq_root sameKind]
              exact found
          | correlated next =>
              rw [kind] at sameKind
              simp only [kind] at found
              simp only [SourceKind.shape_eq_correlated sameKind]
              exact inductionHypothesis enough found
          | join parent field direction mode on =>
              rw [kind] at sameKind
              obtain ⟨laterOn, laterKind⟩ := SourceKind.shape_eq_join sameKind
              simp only [kind] at found
              simp only [laterKind]
              exact found

/-- What a source finally stands for never changes. -/
theorem Evolves.resolveCorrelation
    {outer : NodeId}
    (evolves : before.Evolves after)
    (found : before.resolveCorrelation id = .ok outer) :
    after.resolveCorrelation id = .ok outer :=
  evolves.resolveFrom (Nat.succ_le_succ evolves.size_le) found

theorem Evolves.enclosesFrom
    {ancestor : NodeId}
    {answer : Bool}
    {fuel more : Nat}
    (evolves : before.Evolves after)
    (enough : fuel ≤ more)
    (found : before.enclosesFrom ancestor fuel id = .ok answer) :
    after.enclosesFrom ancestor more id = .ok answer := by
  induction fuel generalizing more id with
  | zero => cases found
  | succ fuel inductionHypothesis =>
      obtain ⟨more, rfl⟩ : ∃ rest, more = rest + 1 := ⟨more - 1, by omega⟩
      have enough : fuel ≤ more := by omega
      unfold Tree.enclosesFrom at found ⊢
      by_cases here : id = ancestor
      · rw [if_pos here] at found ⊢
        exact found
      rw [if_neg here] at found ⊢
      cases statementFound : before.statement id with
      | error error =>
          rw [statementFound] at found
          cases found
      | ok body =>
          obtain ⟨node, foundLater, same⟩ := evolves id _ (statement_eq_ok.mp statementFound)
          obtain ⟨later, rfl, -, sameParent⟩ := Node.shape_eq_statement same
          rw [statementFound] at found
          rw [statement_eq_ok.mpr foundLater]
          simp only [sameParent]
          cases parent : body.parent with
          | none =>
              simp only [parent] at found
              exact found
          | some above =>
              simp only [parent] at found
              exact inductionHypothesis enough found

/-- A statement around another one stays around it. -/
theorem Evolves.encloses
    {ancestor : NodeId}
    {answer : Bool}
    (evolves : before.Evolves after)
    (found : before.encloses ancestor id = .ok answer) :
    after.encloses ancestor id = .ok answer :=
  evolves.enclosesFrom (Nat.succ_le_succ evolves.size_le) found

end Shapes
end Tree
end QueryGraph
