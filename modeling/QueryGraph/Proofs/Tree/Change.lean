import Mathlib.Logic.Relation
import QueryGraph.Proofs.Operation
import QueryGraph.Proofs.Tree.Lookup
import QueryGraph.Tree.Builder

/-!
# What an operation does to a tree

Every operation on a tree amounts to a few changes of three kinds: a node is added
that nothing lists, a node is added and listed by an older one, or an older node is
altered in place. A change touches at most one older node, and never a held one.
-/

namespace QueryGraph
namespace Tree

/-- A node that may be used as an expression. -/
def HasExpression (tree : Tree) (id : NodeId) : Prop :=
  ∃ node, tree.node? id = some node ∧ node.isExpression = true

/-- A node that may have fields and may be treated as another type. -/
def HasPathLike (tree : Tree) (id : NodeId) : Prop :=
  ∃ node, tree.node? id = some node ∧ node.isPathLike = true

/-- A node that may be added although no other node lists it. -/
inductive Loose (tree : Tree) : Node -> Prop
  | subquery
      (parent : NodeId)
      (body : Statement)
      (found : tree.node? parent = some (.statement body)) :
      Loose tree (.statement { kind := .subquery, parent := some parent })
  | path
      (parent : NodeId)
      (field : String)
      (found : tree.HasPathLike parent) :
      Loose tree (.path parent field)
  | treat
      (target : NodeId)
      (asType : String)
      (found : tree.HasPathLike target) :
      Loose tree (.treat target asType)
  | parameter (name : Option String) : Loose tree (.parameter name)
  | literal (value : Literal) : Loose tree (.literal value)
  | expression
      (operator : Operator)
      (operands : List NodeId)
      (found : ∀ operand ∈ operands, tree.HasExpression operand) :
      Loose tree (.expression operator operands)

/-- A node that is added together with its place in the list of an older node. The
older node is given before and after. -/
inductive Adopts (tree : Tree) (parent : NodeId) : Node -> Node -> Node -> Prop
  | root
      (body : Statement)
      (recordType : String) :
      Adopts tree parent (.statement body)
        (.source { statement := parent, kind := .root recordType })
        (.statement { body with roots := body.roots ++ [⟨tree.size⟩] })
  | join
      (body : Source)
      (field : String)
      (direction : JoinDirection)
      (mode : JoinMode)
      (declared : body.isCorrelated = false) :
      Adopts tree parent (.source body)
        (.source {
          statement := body.statement
          kind := .join parent field direction mode none })
        (.source { body with joins := body.joins ++ [⟨tree.size⟩] })
  | correlation
      (body : Statement)
      (outer around : NodeId)
      (source : Source)
      (isSubquery : body.kind = .subquery)
      (found : tree.node? outer = some (.source source))
      (within : body.parent = some around)
      (visible : tree.encloses source.statement around = .ok true) :
      Adopts tree parent (.statement body)
        (.source { statement := parent, kind := .correlated outer })
        (.statement { body with correlations := body.correlations ++ [⟨tree.size⟩] })
  | fetchOfSource
      (body : Source)
      (field : String)
      (direction : JoinDirection)
      (collection : CollectionFetch)
      (declared : body.isCorrelated = false) :
      Adopts tree parent (.source body)
        (.fetch {
          parent := parent
          field := field
          direction := direction
          collection := collection })
        (.source { body with fetches := body.fetches ++ [⟨tree.size⟩] })
  | fetchOfFetch
      (body : Fetch)
      (field : String)
      (direction : JoinDirection)
      (collection : CollectionFetch) :
      Adopts tree parent (.fetch body)
        (.fetch {
          parent := parent
          field := field
          direction := direction
          collection := collection })
        (.fetch { body with fetches := body.fetches ++ [⟨tree.size⟩] })
  | order
      (body : Statement)
      (expression : NodeId)
      (ascending : Bool)
      (isQuery : body.kind = .query)
      (found : tree.HasExpression expression) :
      Adopts tree parent (.statement body) (.order expression ascending)
        (.statement { body with orderList := body.orderList ++ [⟨tree.size⟩] })
  | assignment
      (body : Statement)
      (target value above : NodeId)
      (field : String)
      (isUpdate : body.kind = .update)
      (isPath : tree.node? target = some (.path above field))
      (found : tree.HasExpression value) :
      Adopts tree parent (.statement body) (.assignment target value)
        (.statement { body with assignments := body.assignments ++ [⟨tree.size⟩] })

/-- An older node before and after it was altered in place. -/
inductive Alters (tree : Tree) : Node -> Node -> Prop
  | selection
      (body : Statement)
      (expression : NodeId)
      (selects : body.kind ∈ Build.selecting)
      (found : tree.HasExpression expression) :
      Alters tree (.statement body)
        (.statement { body with selection := body.selection ++ [expression] })
  | restriction
      (body : Statement)
      (predicate : NodeId)
      (found : tree.HasExpression predicate) :
      Alters tree (.statement body) (.statement { body with restriction := some predicate })
  | grouping
      (body : Statement)
      (expression : NodeId)
      (selects : body.kind ∈ Build.selecting)
      (found : tree.HasExpression expression) :
      Alters tree (.statement body)
        (.statement { body with groupList := body.groupList ++ [expression] })
  | groupRestriction
      (body : Statement)
      (predicate : NodeId)
      (selects : body.kind ∈ Build.selecting)
      (found : tree.HasExpression predicate) :
      Alters tree (.statement body)
        (.statement { body with groupRestriction := some predicate })
  | distinct
      (body : Statement)
      (distinct : Bool)
      (selects : body.kind ∈ Build.selecting) :
      Alters tree (.statement body) (.statement { body with distinct := distinct })
  | aliasHint
      (body : Source)
      (name : String) :
      Alters tree (.source body) (.source { body with aliasHint := some name })
  | condition
      (body : Source)
      (parent condition : NodeId)
      (field : String)
      (direction : JoinDirection)
      (mode : JoinMode)
      (on : Option NodeId)
      (isJoin : body.kind = .join parent field direction mode on)
      (found : tree.HasExpression condition) :
      Alters tree (.source body)
        (.source { body with kind := .join parent field direction mode (some condition) })

/-- One change of a tree. -/
inductive Change (tree : Tree) : Tree -> Prop
  | added
      (node : Node)
      (loose : tree.Loose node) :
      Change tree (tree.push node)
  | adopted
      (parent : NodeId)
      (node child grown : Node)
      (found : tree.node? parent = some node)
      (free : tree.isFrozen parent = false)
      (adopts : tree.Adopts parent node child grown) :
      Change tree ((tree.push child).replace parent grown)
  | altered
      (id : NodeId)
      (node changed : Node)
      (found : tree.node? id = some node)
      (free : tree.isFrozen id = false)
      (alters : tree.Alters node changed) :
      Change tree (tree.replace id changed)

/-- Any number of changes, one after the other. -/
def Changes : Tree -> Tree -> Prop := Relation.ReflTransGen Change

namespace Changes

theorem refl (tree : Tree) : tree.Changes tree := Relation.ReflTransGen.refl

theorem single
    {before after : Tree}
    (change : before.Change after) :
    before.Changes after :=
  Relation.ReflTransGen.single change

theorem trans
    {first second third : Tree}
    (earlier : first.Changes second)
    (later : second.Changes third) :
    first.Changes third :=
  Relation.ReflTransGen.trans earlier later

end Changes
end Tree

namespace Build

open Operation

/-! ## What the checks establish -/

/-- Reading a tree succeeds or is refused as the query is. -/
theorem read_apply (query : Tree -> Except TreeError α) (tree : Tree) :
    read query tree =
      match query tree with
      | .ok value => .ok value tree
      | .error error => .error error tree := by
  unfold read
  rw [bind_of_ok (get_apply tree)]
  cases query tree <;> rfl

theorem read_checks (query : Tree -> Except TreeError α) :
    Checks (read query) fun tree value => query tree = .ok value := by
  intro tree
  cases result : query tree with
  | error error => exact Or.inl ⟨error, by simp [read_apply, result]⟩
  | ok value => exact Or.inr ⟨value, by simp [read_apply, result], result⟩

theorem writableStatement_checks (id : NodeId) :
    Checks (writableStatement id) fun tree body =>
      tree.node? id = some (.statement body) ∧ tree.isFrozen id = false := by
  refine (read_checks _).bind fun body => Checks.get.bind fun tree => ?_
  by_cases frozen : tree.isFrozen id = true
  · rw [if_pos frozen]
    exact Checks.throw _ _
  · rw [if_neg frozen]
    apply (Checks.pure body).mono
    rintro state result rfl rfl found
    exact ⟨Tree.statement_eq_ok.mp found, by simpa using frozen⟩

theorem statementWithClause_checks
    (id : NodeId)
    (clause : ClauseKind)
    (kinds : List StatementKind) :
    Checks (statementWithClause id clause kinds) fun tree body =>
      tree.node? id = some (.statement body) ∧ tree.isFrozen id = false ∧
        body.kind ∈ kinds := by
  apply (writableStatement_checks id).bind
  intro body
  apply (Checks.guard (body.kind ∈ kinds) body _).mono
  rintro state result ⟨admitted, rfl⟩ ⟨found, free⟩
  exact ⟨found, free, admitted⟩

theorem joinableSource_checks (id : NodeId) :
    Checks (joinableSource id) fun tree body =>
      tree.node? id = some (.source body) ∧ tree.isFrozen id = false ∧
        body.isCorrelated = false := by
  apply (read_checks _).bind
  intro body
  by_cases correlated : body.isCorrelated = true
  · rw [if_pos correlated]
    exact Checks.throw _ _
  · rw [if_neg correlated]
    apply Checks.get.bind
    intro tree
    by_cases frozen : tree.isFrozen id = true
    · rw [if_pos frozen]
      exact Checks.throw _ _
    · rw [if_neg frozen]
      apply (Checks.pure body).mono
      rintro state result rfl rfl found
      exact ⟨Tree.source_eq_ok.mp found, by simpa using frozen, by simpa using correlated⟩

theorem expectExpression_checks (id : NodeId) :
    Checks (expectExpression id) fun tree _ => tree.HasExpression id := by
  apply (read_checks _).bind
  intro node
  apply (Checks.guard (node.isExpression = true) () _).mono
  rintro state result ⟨admitted, -⟩ found
  exact ⟨node, Tree.node_eq_ok.mp found, admitted⟩

theorem expectPathParent_checks (id : NodeId) :
    Checks (expectPathParent id) fun tree _ => tree.HasPathLike id := by
  apply (read_checks _).bind
  intro node
  apply (Checks.guard (node.isPathLike = true) () _).mono
  rintro state result ⟨admitted, -⟩ found
  exact ⟨node, Tree.node_eq_ok.mp found, admitted⟩

theorem expectExpressions_checks (operands : List NodeId) :
    Checks (operands.forM expectExpression) fun tree _ =>
      ∀ operand ∈ operands, tree.HasExpression operand := by
  induction operands with
  | nil =>
      apply (Checks.pure ()).mono
      simp
  | cons operand operands inductionHypothesis =>
      apply (expectExpression_checks operand).bind
      intro _
      apply inductionHypothesis.mono
      intro tree _ rest first
      simpa using ⟨first, rest⟩

/-! ## What the steps do after the checks -/

/-- The tree that an operation leaves, whether it succeeds or is refused. -/
def after (action : Build α) (tree : Tree) : Tree := finalState (action tree)

@[simp] theorem after_push (node : Node) (tree : Tree) :
    after (push node) tree = tree.push node := rfl

theorem after_push_bind
    (node : Node)
    (rest : NodeId -> Build α)
    (tree : Tree) :
    after (push node >>= rest) tree = after (rest ⟨tree.size⟩) (tree.push node) := rfl

/-- Nothing that follows a change of the tree alone changes it again. -/
theorem after_bind_pure
    (first : Build α)
    (value : β)
    (tree : Tree) :
    after (first >>= fun _ => pure value) tree = after first tree := by
  unfold after
  rw [bind_apply]
  cases first tree <;> rfl

theorem after_mutate
    {id : NodeId}
    {change : Node -> Except TreeError Node}
    {tree : Tree}
    {node changed : Node}
    (found : tree.node? id = some node)
    (free : tree.isFrozen id = false)
    (accepted : change node = .ok changed) :
    after (mutate id change) tree = tree.replace id changed := by
  unfold after mutate
  rw [bind_of_ok (get_apply tree)]
  simp [Tree.node_eq_ok.mpr found, free, accepted]

/-- A change of a node that is refused, or not made because the node is held or
missing, leaves the tree as it was. -/
theorem after_mutate_eq_or
    (id : NodeId)
    (change : Node -> Except TreeError Node)
    (tree : Tree) :
    after (mutate id change) tree = tree ∨
      ∃ node changed, tree.node? id = some node ∧ tree.isFrozen id = false ∧
        change node = .ok changed ∧ after (mutate id change) tree = tree.replace id changed := by
  cases found : tree.node? id with
  | none =>
      left
      have missing : tree.node id = .error (.unknownNode id) := by
        simp [Tree.node, found]
      unfold after mutate
      rw [bind_of_ok (get_apply tree)]
      simp [missing]
  | some node =>
      cases frozen : tree.isFrozen id with
      | true =>
          left
          unfold after mutate
          rw [bind_of_ok (get_apply tree)]
          simp [Tree.node_eq_ok.mpr found, frozen]
      | false =>
          cases accepted : change node with
          | error error =>
              left
              unfold after mutate
              rw [bind_of_ok (get_apply tree)]
              simp [Tree.node_eq_ok.mpr found, frozen, accepted]
          | ok changed =>
              right
              exact ⟨node, changed, rfl, rfl, accepted, after_mutate found frozen accepted⟩

/-- An operation that begins with a check only has to be looked at where the check
succeeds. -/
theorem changes_of_checks
    {check : Build α}
    {fact : Tree -> α -> Prop}
    {rest : α -> Build β}
    {tree : Tree}
    (checks : Checks check fact)
    (changes : ∀ value, fact tree value -> tree.Changes (after (rest value) tree)) :
    tree.Changes (after (check >>= rest) tree) := by
  rcases checks tree with ⟨error, refused⟩ | ⟨value, passed, holds⟩
  · unfold after
    rw [bind_of_error refused]
    exact Tree.Changes.refl tree
  · have same : after (check >>= rest) tree = after (rest value) tree := by
      unfold after
      rw [bind_of_ok passed]
    rw [same]
    exact changes value holds

/-! ## What the operations do -/

theorem push_changes
    {node : Node}
    {tree : Tree}
    (loose : tree.Loose node) :
    tree.Changes (after (push node) tree) :=
  Tree.Changes.single (.added node loose)

/-- Adding a node and listing it in an older one is a single change. -/
theorem adopt_changes
    {parent : NodeId}
    {node child grown : Node}
    {change : Node -> Except TreeError Node}
    {tree : Tree}
    (found : tree.node? parent = some node)
    (free : tree.isFrozen parent = false)
    (adopts : tree.Adopts parent node child grown)
    (accepted : change node = .ok grown) :
    tree.Changes (after (mutate parent change) (tree.push child)) := by
  have kept := Tree.node?_push_of_some child found
  have stillFree : (tree.push child).isFrozen parent = false := by simpa using free
  rw [after_mutate kept stillFree accepted]
  exact Tree.Changes.single (.adopted parent node child grown found free adopts)

theorem alter_changes
    {id : NodeId}
    {node changed : Node}
    {change : Node -> Except TreeError Node}
    {tree : Tree}
    (found : tree.node? id = some node)
    (free : tree.isFrozen id = false)
    (alters : tree.Alters node changed)
    (accepted : change node = .ok changed) :
    tree.Changes (after (mutate id change) tree) := by
  rw [after_mutate found free accepted]
  exact Tree.Changes.single (.altered id node changed found free alters)

theorem subquery_changes (parent : NodeId) (tree : Tree) :
    tree.Changes (after (subquery parent) tree) :=
  changes_of_checks (read_checks _) fun body found =>
    push_changes (.subquery parent body (Tree.statement_eq_ok.mp found))

theorem root_changes (statement : NodeId) (recordType : String) (tree : Tree) :
    tree.Changes (after (root statement recordType) tree) := by
  apply changes_of_checks (writableStatement_checks statement)
  rintro body ⟨found, free⟩
  rw [after_push_bind, after_bind_pure]
  exact adopt_changes found free (.root body recordType) rfl

theorem join_changes
    (parent : NodeId)
    (field : String)
    (direction : JoinDirection)
    (mode : JoinMode)
    (tree : Tree) :
    tree.Changes (after (join parent field direction mode) tree) := by
  apply changes_of_checks (joinableSource_checks parent)
  rintro body ⟨found, free, declared⟩
  rw [after_push_bind, after_bind_pure]
  exact adopt_changes found free (.join body field direction mode declared) rfl

theorem correlate_changes (subquery outer : NodeId) (tree : Tree) :
    tree.Changes (after (correlate subquery outer) tree) := by
  apply changes_of_checks (writableStatement_checks subquery)
  rintro body ⟨found, free⟩
  by_cases isSubquery : body.kind = .subquery
  · rw [if_neg (by simp [isSubquery])]
    apply changes_of_checks (read_checks _)
    intro source outerFound
    cases within : body.parent with
    | none => exact Tree.Changes.refl tree
    | some around =>
        apply changes_of_checks (read_checks _)
        intro visible visibleHolds
        cases visible with
        | false => exact Tree.Changes.refl tree
        | true =>
            change tree.Changes (after (push _ >>= fun _ => _) tree)
            rw [after_push_bind, after_bind_pure]
            exact adopt_changes found free
              (.correlation body outer around source isSubquery
                (Tree.source_eq_ok.mp outerFound) within visibleHolds) rfl
  · rw [if_pos isSubquery]
    exact Tree.Changes.refl tree

theorem fetch_changes
    (parent : NodeId)
    (field : String)
    (direction : JoinDirection)
    (collection : CollectionFetch)
    (tree : Tree) :
    tree.Changes (after (fetch parent field direction collection) tree) := by
  apply changes_of_checks (read_checks _)
  intro node found
  have found := Tree.node_eq_ok.mp found
  cases node with
  | source body =>
      apply changes_of_checks (joinableSource_checks parent)
      rintro source ⟨sourceFound, free, declared⟩
      change tree.Changes (after (push _ >>= fun _ => _) tree)
      rw [after_push_bind, after_bind_pure]
      exact adopt_changes sourceFound free
        (.fetchOfSource source field direction collection declared) rfl
  | fetch body =>
      apply changes_of_checks Checks.get
      intro current same
      rw [same]
      by_cases frozen : tree.isFrozen parent = true
      · rw [if_pos frozen]
        exact Tree.Changes.refl tree
      · rw [if_neg frozen]
        change tree.Changes (after (push _ >>= fun _ => _) tree)
        rw [after_push_bind, after_bind_pure]
        exact adopt_changes found (by simpa using frozen)
          (.fetchOfFetch body field direction collection) rfl
  | _ => exact Tree.Changes.refl tree

theorem access_changes (parent : NodeId) (field : String) (tree : Tree) :
    tree.Changes (after (access parent field) tree) :=
  changes_of_checks (expectPathParent_checks parent) fun _ found =>
    push_changes (.path parent field found)

theorem accessAll_changes (parent : NodeId) (fields : List String) (tree : Tree) :
    tree.Changes (after (accessAll parent fields) tree) := by
  induction fields generalizing parent tree with
  | nil => exact Tree.Changes.refl tree
  | cons field fields inductionHypothesis =>
      unfold accessAll
      have first := access_changes parent field tree
      unfold after at first ⊢
      rw [bind_apply]
      cases done : access parent field tree with
      | error error refused => simpa [done] using first
      | ok next grown =>
          rw [done] at first
          exact first.trans (inductionHypothesis next grown)

theorem treat_changes (target : NodeId) (asType : String) (tree : Tree) :
    tree.Changes (after (treat target asType) tree) :=
  changes_of_checks (expectPathParent_checks target) fun _ found =>
    push_changes (.treat target asType found)

theorem expression_changes
    (operator : Operator)
    (operands : List NodeId)
    (tree : Tree) :
    tree.Changes (after (expression operator operands) tree) :=
  changes_of_checks (expectExpressions_checks operands) fun _ found =>
    push_changes (.expression operator operands found)

theorem setAlias_changes (source : NodeId) (name : String) (tree : Tree) :
    tree.Changes (after (setAlias source name) tree) := by
  unfold setAlias
  rcases after_mutate_eq_or source _ tree with same | ⟨node, changed, found, free, accepted, done⟩
  · rw [same]
    exact Tree.Changes.refl tree
  · rw [done]
    cases node with
    | source body =>
        cases accepted
        exact Tree.Changes.single (.altered source _ _ found free (.aliasHint body name))
    | _ => cases accepted

theorem setOn_changes (join condition : NodeId) (tree : Tree) :
    tree.Changes (after (setOn join condition) tree) := by
  apply changes_of_checks (expectExpression_checks condition)
  intro _ isExpression
  rcases after_mutate_eq_or join _ tree with same | ⟨node, changed, found, free, accepted, done⟩
  · rw [same]
    exact Tree.Changes.refl tree
  · rw [done]
    cases node with
    | source body =>
        cases kind : body.kind with
        | join parent field direction mode on =>
            simp only [kind] at accepted
            cases accepted
            exact Tree.Changes.single (.altered join _ _ found free
              (.condition body parent condition field direction mode on kind isExpression))
        | root recordType => simp [kind] at accepted
        | correlated outer => simp [kind] at accepted
    | _ => cases accepted

theorem select_changes (statement expression : NodeId) (tree : Tree) :
    tree.Changes (after (select statement expression) tree) := by
  apply changes_of_checks (statementWithClause_checks statement _ _)
  rintro body ⟨found, free, selects⟩
  apply changes_of_checks (expectExpression_checks expression)
  intro _ isExpression
  exact alter_changes found free (.selection body expression selects isExpression) rfl

theorem groupBy_changes (statement expression : NodeId) (tree : Tree) :
    tree.Changes (after (groupBy statement expression) tree) := by
  apply changes_of_checks (statementWithClause_checks statement _ _)
  rintro body ⟨found, free, selects⟩
  apply changes_of_checks (expectExpression_checks expression)
  intro _ isExpression
  exact alter_changes found free (.grouping body expression selects isExpression) rfl

theorem distinct_changes (statement : NodeId) (value : Bool) (tree : Tree) :
    tree.Changes (after (distinct statement value) tree) := by
  apply changes_of_checks (statementWithClause_checks statement _ _)
  rintro body ⟨found, free, selects⟩
  exact alter_changes found free (.distinct body value selects) rfl

theorem orderBy_changes
    (statement expression : NodeId)
    (ascending : Bool)
    (tree : Tree) :
    tree.Changes (after (orderBy statement expression ascending) tree) := by
  apply changes_of_checks (statementWithClause_checks statement _ _)
  rintro body ⟨found, free, isQuery⟩
  apply changes_of_checks (expectExpression_checks expression)
  intro _ isExpression
  rw [after_push_bind, after_bind_pure]
  exact adopt_changes found free
    (.order body expression ascending (by simpa using isQuery) isExpression) rfl

theorem assign_changes (statement target value : NodeId) (tree : Tree) :
    tree.Changes (after (assign statement target value) tree) := by
  apply changes_of_checks (statementWithClause_checks statement _ _)
  rintro body ⟨found, free, isUpdate⟩
  apply changes_of_checks (read_checks _)
  intro node targetFound
  have targetFound := Tree.node_eq_ok.mp targetFound
  cases node with
  | path above field =>
      apply changes_of_checks (expectExpression_checks value)
      intro _ isExpression
      rw [after_push_bind, after_bind_pure]
      exact adopt_changes found free
        (.assignment body target value above field (by simpa using isUpdate) targetFound
          isExpression) rfl
  | _ => exact Tree.Changes.refl tree

/-- A statement that takes over a predicate, after the conjunction with an earlier
predicate was added where there is one. -/
theorem combine_changes
    {statement predicate : NodeId}
    {body : Statement}
    {existing : Option NodeId}
    {change : NodeId -> Statement -> Statement}
    {tree : Tree}
    (found : tree.node? statement = some (.statement body))
    (free : tree.isFrozen statement = false)
    (isExpression : tree.HasExpression predicate)
    (alters : ∀ (grown : Tree) (combined : NodeId), grown.HasExpression combined ->
      grown.Alters (.statement body) (.statement (change combined body))) :
    tree.Changes (after (combine existing predicate >>= fun combined =>
      mutateStatement statement (change combined)) tree) := by
  cases existing with
  | none => exact alter_changes found free (alters tree predicate isExpression) rfl
  | some previous =>
      change tree.Changes (after (expression .and [previous, predicate] >>= fun combined =>
        mutateStatement statement (change combined)) tree)
      unfold expression
      rw [bind_assoc]
      apply changes_of_checks (expectExpressions_checks _)
      intro _ areExpressions
      rw [after_push_bind]
      apply (push_changes (.expression .and [previous, predicate] areExpressions)).trans
      refine alter_changes (Tree.node?_push_of_some _ found) (by simpa using free)
        (alters _ _ ⟨_, Tree.node?_push_size _ _, rfl⟩) rfl

theorem restrict_changes (statement predicate : NodeId) (tree : Tree) :
    tree.Changes (after (restrict statement predicate) tree) := by
  apply changes_of_checks (writableStatement_checks statement)
  rintro body ⟨found, free⟩
  apply changes_of_checks (expectExpression_checks predicate)
  intro _ isExpression
  exact combine_changes found free isExpression fun _ combined => .restriction body combined

theorem having_changes (statement predicate : NodeId) (tree : Tree) :
    tree.Changes (after (having statement predicate) tree) := by
  apply changes_of_checks (statementWithClause_checks statement _ _)
  rintro body ⟨found, free, selects⟩
  apply changes_of_checks (expectExpression_checks predicate)
  intro _ isExpression
  exact combine_changes found free isExpression fun _ combined =>
    .groupRestriction body combined selects

end Build
end QueryGraph
