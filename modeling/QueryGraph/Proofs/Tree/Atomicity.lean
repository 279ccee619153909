import QueryGraph.Proofs.Tree.Holds

/-!
# Building calls are atomic

A building call that is refused leaves the tree as it was. One that succeeds adds nodes
that nobody holds at the end and changes at most one older node, which nobody holds. An
operation that adds a node first and changes an older one afterwards has looked the older
one up before, so the late change is never refused.
-/

namespace QueryGraph
namespace Tree

/-- A tree that was built on: all holds are kept, the added nodes are at the end and free,
and there is one node such that every other older node is unchanged; where that one has
changed, nobody held it. -/
structure Frames (before after : Tree) : Prop where
  size_le : before.size ≤ after.size
  hold_eq : ∀ id, after.hold id = before.hold id
  fresh : ∀ id, before.size ≤ id.index -> after.isFrozen id = false
  changed : ∃ touched, ∀ id, id.index < before.size ->
    after.node? id ≠ before.node? id -> id = touched ∧ before.isFrozen id = false

/-- How a building call may end. -/
def Atomic (before : Tree) : EStateM.Result TreeError Tree α -> Prop
  | .ok _ after => before.Frames after
  | .error _ after => after = before

namespace Frames

variable {before after : Tree}

/-- It is enough to know the sizes, the holds and the older nodes. -/
theorem of_hold_eq
    (size_le : before.size ≤ after.size)
    (hold_eq : ∀ id, after.hold id = before.hold id)
    (changed : ∃ touched, ∀ id, id.index < before.size ->
      after.node? id ≠ before.node? id -> id = touched ∧ before.isFrozen id = false) :
    before.Frames after where
  size_le := size_le
  hold_eq := hold_eq
  fresh := by
    intro id beyond
    simp only [isFrozen, frozenBy, hold_eq id, hold_of_size_le beyond, Option.isSome_none]
  changed := changed

theorem refl (tree : Tree) : tree.Frames tree :=
  of_hold_eq (Nat.le_refl _) (fun _ => rfl) ⟨top, fun _ _ differs => absurd rfl differs⟩

/-- A node that was added may be what the rest changes. -/
theorem of_push
    {node : Node}
    (frames : (before.push node).Frames after) :
    before.Frames after := by
  obtain ⟨touched, changed⟩ := frames.changed
  refine of_hold_eq ?_ ?_ ⟨touched, ?_⟩
  · have grown := frames.size_le
    rw [size_push] at grown
    omega
  · intro id
    rw [frames.hold_eq, hold_push]
  · intro id below differs
    have same : (before.push node).node? id = before.node? id := by
      rw [node?_push, if_neg (by omega)]
    rw [← same] at differs
    have older : id.index < (before.push node).size := by
      rw [size_push]
      omega
    simpa using changed id older differs

theorem push (tree : Tree) (node : Node) : tree.Frames (tree.push node) :=
  of_push (refl _)

/-- A node that nobody holds may be replaced. -/
theorem replace
    {tree : Tree}
    {id : NodeId}
    (node : Node)
    (free : tree.isFrozen id = false) :
    tree.Frames (tree.replace id node) := by
  refine of_hold_eq (by simp) (hold_replace tree id node) ⟨id, ?_⟩
  intro other _ differs
  by_cases same : other = id
  · rw [same]
    exact ⟨rfl, free⟩
  · exact absurd (node?_replace_of_ne node same) differs

end Frames
end Tree

namespace Build

open Operation

variable {tree : Tree}

/-! ## Parts of operations -/

/-- An operation that begins with a check is atomic where the rest is, in a tree that passed
the check. -/
theorem atomic_of_checks
    {check : Build α}
    {fact : Tree -> α -> Prop}
    {rest : α -> Build β}
    (checks : Checks check fact)
    (atomic : ∀ value, fact tree value -> tree.Atomic (rest value tree)) :
    tree.Atomic ((check >>= rest) tree) := by
  rcases checks tree with ⟨error, refused⟩ | ⟨value, passed, holds⟩
  · rw [bind_of_error refused]
    rfl
  · rw [bind_of_ok passed]
    exact atomic value holds

/-- An operation without what it returns. -/
def void (action : Build α) : Build Unit := action >>= fun _ => pure ()

theorem atomic_void
    {action : Build α}
    (atomic : tree.Atomic (action tree)) :
    tree.Atomic (action.void tree) := by
  unfold void
  rw [bind_apply]
  cases done : action tree with
  | ok value after =>
      rw [done] at atomic
      exact atomic
  | error error after =>
      rw [done] at atomic
      exact atomic

theorem atomic_throw (error : TreeError) :
    tree.Atomic ((throw error : Build α) tree) := rfl

theorem atomic_push (node : Node) : tree.Atomic (push node tree) :=
  Tree.Frames.push tree node

/-- A change of one node is made where it is found and free, and refused otherwise. -/
theorem atomic_mutate
    (id : NodeId)
    (change : Node -> Except TreeError Node) :
    tree.Atomic (mutate id change tree) := by
  unfold mutate
  apply atomic_of_checks Checks.get
  intro current same
  subst same
  cases current.node id with
  | error error => rfl
  | ok node =>
      cases frozen : current.isFrozen id with
      | true =>
          simp only [if_true]
          rfl
      | false =>
          cases accepted : change node with
          | error error =>
              simp only [accepted, Bool.false_eq_true, if_false]
              rfl
          | ok changed =>
              simp only [accepted, Bool.false_eq_true, if_false]
              exact Tree.Frames.replace changed frozen

/-- A node that is found and free takes every change that is not refused by itself. -/
theorem mutate_of_free
    {id : NodeId}
    {change : Node -> Except TreeError Node}
    {node changed : Node}
    (found : tree.node? id = some node)
    (free : tree.isFrozen id = false)
    (accepted : change node = .ok changed) :
    mutate id change tree = .ok () (tree.replace id changed) := by
  unfold mutate
  rw [bind_of_ok (get_apply tree)]
  simp [Tree.node_eq_ok.mpr found, free, accepted]

/-- A node is added, and an older one that was found and free is changed. The older one is
still found and free after the push, so this is never refused. -/
theorem atomic_push_mutate
    {id : NodeId}
    {child node changed : Node}
    {change : NodeId -> Node -> Except TreeError Node}
    (found : tree.node? id = some node)
    (free : tree.isFrozen id = false)
    (accepted : change ⟨tree.size⟩ node = .ok changed) :
    tree.Atomic ((push child >>= fun added => mutate id (change added)) tree) := by
  have stillFree : (tree.push child).isFrozen id = false := by simpa using free
  change tree.Atomic (mutate id (change ⟨tree.size⟩) (tree.push child))
  rw [mutate_of_free (Tree.node?_push_of_some child found) stillFree accepted]
  exact (Tree.Frames.replace changed stillFree).of_push

/-- As `atomic_push_mutate`, for an operation that returns the number of the added node. -/
theorem atomic_adopt
    {id : NodeId}
    {child node changed : Node}
    {change : NodeId -> Node -> Except TreeError Node}
    (found : tree.node? id = some node)
    (free : tree.isFrozen id = false)
    (accepted : change ⟨tree.size⟩ node = .ok changed) :
    tree.Atomic ((push child >>= fun added => do
      mutate id (change added)
      return added) tree) := by
  have stillFree : (tree.push child).isFrozen id = false := by simpa using free
  have mutated : mutate id (change ⟨tree.size⟩) (tree.push child) =
      .ok () ((tree.push child).replace id changed) :=
    mutate_of_free (Tree.node?_push_of_some child found) stillFree accepted
  change tree.Atomic ((mutate id (change ⟨tree.size⟩) >>= fun _ => pure _) (tree.push child))
  rw [bind_of_ok mutated]
  exact (Tree.Frames.replace changed stillFree).of_push

/-! ## Operations -/

theorem atomic_subquery (parent : NodeId) : tree.Atomic (subquery parent tree) :=
  atomic_of_checks (read_checks _) fun _ _ => atomic_push _

theorem atomic_root
    (statement : NodeId)
    (recordType : String) :
    tree.Atomic (root statement recordType tree) :=
  atomic_of_checks (writableStatement_checks statement) fun _ ⟨found, free⟩ =>
    atomic_adopt found free rfl

theorem atomic_join
    (parent : NodeId)
    (field : String)
    (direction : JoinDirection)
    (mode : JoinMode) :
    tree.Atomic (join parent field direction mode tree) :=
  atomic_of_checks (joinableSource_checks parent) fun _ ⟨found, free, _⟩ =>
    atomic_adopt found free rfl

theorem atomic_correlate (subquery outer : NodeId) :
    tree.Atomic (correlate subquery outer tree) := by
  apply atomic_of_checks (writableStatement_checks subquery)
  rintro body ⟨found, free⟩
  by_cases isSubquery : body.kind = .subquery
  · rw [if_neg (by simp [isSubquery])]
    apply atomic_of_checks (read_checks _)
    intro source outerFound
    cases within : body.parent with
    | none => exact atomic_throw _
    | some around =>
        apply atomic_of_checks (read_checks _)
        intro visible _
        cases visible with
        | false => exact atomic_throw _
        | true =>
            change tree.Atomic ((push _ >>= fun added => do
              mutateStatement subquery fun body =>
                { body with correlations := body.correlations ++ [added] }
              return added) tree)
            exact atomic_adopt found free rfl
  · rw [if_pos isSubquery]
    exact atomic_throw _

theorem atomic_fetch
    (parent : NodeId)
    (field : String)
    (direction : JoinDirection)
    (collection : CollectionFetch) :
    tree.Atomic (fetch parent field direction collection tree) := by
  apply atomic_of_checks (read_checks _)
  intro node nodeFound
  have nodeFound := Tree.node_eq_ok.mp nodeFound
  cases node with
  | source body =>
      apply atomic_of_checks (joinableSource_checks parent)
      rintro source ⟨found, free, -⟩
      exact atomic_adopt found free rfl
  | fetch body =>
      apply atomic_of_checks Checks.get
      intro current same
      rw [same]
      by_cases frozen : tree.isFrozen parent = true
      · rw [if_pos frozen]
        exact atomic_throw _
      · rw [if_neg frozen]
        exact atomic_adopt nodeFound (by simpa using frozen) rfl
  | _ => exact atomic_throw _

theorem atomic_setOn (join condition : NodeId) : tree.Atomic (setOn join condition tree) :=
  atomic_of_checks (expectExpression_checks condition) fun _ _ => atomic_mutate join _

theorem atomic_access (parent : NodeId) (field : String) :
    tree.Atomic (access parent field tree) :=
  atomic_of_checks (expectPathParent_checks parent) fun _ _ => atomic_push _

/-- Below a node that may have fields a chain of accesses is never refused, because every
access makes a node that may have fields. -/
theorem accessAll_of_pathLike
    {parent : NodeId}
    (found : tree.HasPathLike parent)
    (fields : List String) :
    ∃ id after, accessAll parent fields tree = .ok id after ∧ tree.Frames after := by
  induction fields generalizing tree parent with
  | nil => exact ⟨parent, tree, rfl, Tree.Frames.refl tree⟩
  | cons field fields inductionHypothesis =>
      have added : (tree.push (.path parent field)).HasPathLike ⟨tree.size⟩ :=
        ⟨_, Tree.node?_push_size tree _, rfl⟩
      have accessed : access parent field tree =
          .ok ⟨tree.size⟩ (tree.push (.path parent field)) := by
        obtain ⟨node, present, isPathLike⟩ := found
        have read : Build.read (·.node parent) tree = .ok node tree := by
          rw [read_apply, Tree.node_eq_ok.mpr present]
        unfold access expectPathParent
        rw [bind_assoc, bind_of_ok read, if_pos isPathLike]
        rfl
      obtain ⟨id, after, done, frames⟩ := inductionHypothesis added
      refine ⟨id, after, ?_, frames.of_push⟩
      unfold accessAll
      rw [bind_of_ok accessed]
      exact done

/-- Only the first access of a chain can be refused. -/
theorem atomic_accessAll (parent : NodeId) (fields : List String) :
    tree.Atomic (accessAll parent fields tree) := by
  cases fields with
  | nil => exact Tree.Frames.refl tree
  | cons field fields =>
      unfold accessAll access
      rw [bind_assoc]
      apply atomic_of_checks (expectPathParent_checks parent)
      intro _ _
      have added : (tree.push (.path parent field)).HasPathLike ⟨tree.size⟩ :=
        ⟨_, Tree.node?_push_size tree _, rfl⟩
      obtain ⟨id, after, done, frames⟩ := accessAll_of_pathLike added fields
      change tree.Atomic (accessAll ⟨tree.size⟩ fields (tree.push (.path parent field)))
      rw [done]
      exact frames.of_push

theorem atomic_treat (target : NodeId) (asType : String) :
    tree.Atomic (treat target asType tree) :=
  atomic_of_checks (expectPathParent_checks target) fun _ _ => atomic_push _

theorem atomic_expression
    (operator : Operator)
    (operands : List NodeId) :
    tree.Atomic (expression operator operands tree) :=
  atomic_of_checks (expectExpressions_checks operands) fun _ _ => atomic_push _

/-- Something that is checked to be an expression is listed in a clause. -/
theorem atomic_addToClause
    {change : Statement -> Statement}
    (statement expression : NodeId)
    (clause : ClauseKind)
    (kinds : List StatementKind) :
    tree.Atomic ((do
      let _ ← statementWithClause statement clause kinds
      expectExpression expression
      mutateStatement statement change) tree) :=
  atomic_of_checks (statementWithClause_checks statement clause kinds) fun _ _ =>
    atomic_of_checks (expectExpression_checks expression) fun _ _ => atomic_mutate statement _

/-- A predicate is taken over by a statement that was found and free. The conjunction with
an earlier predicate can be refused only before it is added. -/
theorem atomic_combine
    {statement : NodeId}
    {body : Statement}
    {change : NodeId -> Statement -> Statement}
    (found : tree.node? statement = some (.statement body))
    (free : tree.isFrozen statement = false)
    (existing : Option NodeId)
    (predicate : NodeId) :
    tree.Atomic ((combine existing predicate >>= fun combined =>
      mutateStatement statement (change combined)) tree) := by
  cases existing with
  | none => exact atomic_mutate statement _
  | some previous =>
      unfold combine and expression
      simp only [bind_assoc]
      apply atomic_of_checks (expectExpressions_checks _)
      intro _ _
      exact atomic_push_mutate found free rfl

theorem atomic_restrict (statement predicate : NodeId) :
    tree.Atomic (restrict statement predicate tree) :=
  atomic_of_checks (writableStatement_checks statement) fun body ⟨found, free⟩ =>
    atomic_of_checks (expectExpression_checks predicate) fun _ _ =>
      atomic_combine found free body.restriction predicate

theorem atomic_having (statement predicate : NodeId) :
    tree.Atomic (having statement predicate tree) :=
  atomic_of_checks (statementWithClause_checks statement _ _) fun body ⟨found, free, _⟩ =>
    atomic_of_checks (expectExpression_checks predicate) fun _ _ =>
      atomic_combine found free body.groupRestriction predicate

theorem atomic_orderBy
    (statement expression : NodeId)
    (ascending : Bool) :
    tree.Atomic (orderBy statement expression ascending tree) :=
  atomic_of_checks (statementWithClause_checks statement _ _) fun _ ⟨found, free, _⟩ =>
    atomic_of_checks (expectExpression_checks expression) fun _ _ => atomic_adopt found free rfl

theorem atomic_assign (statement target value : NodeId) :
    tree.Atomic (assign statement target value tree) := by
  apply atomic_of_checks (statementWithClause_checks statement _ _)
  rintro body ⟨found, free, -⟩
  apply atomic_of_checks (read_checks _)
  intro node _
  cases node with
  | path above field =>
      apply atomic_of_checks (expectExpression_checks value)
      intro _ _
      exact atomic_adopt found free rfl
  | _ => exact atomic_throw _

theorem atomic_distinct (statement : NodeId) (value : Bool) :
    tree.Atomic (distinct statement value tree) :=
  atomic_of_checks (statementWithClause_checks statement _ _) fun _ _ =>
    atomic_mutate statement _

/-! ## Calls -/

/-- The operation that a building call performs. -/
def run : BuilderCall -> Build Unit
  | .subquery parent => (subquery parent).void
  | .root statement recordType => (root statement recordType).void
  | .join parent field direction mode => (join parent field direction mode).void
  | .correlate subquery outer => (correlate subquery outer).void
  | .fetch parent field direction collection =>
      (fetch parent field direction collection).void
  | .setAlias source name => setAlias source name
  | .setOn join condition => setOn join condition
  | .access parent field => (access parent field).void
  | .accessAll parent fields => (accessAll parent fields).void
  | .treat target asType => (treat target asType).void
  | .namedParameter name => (namedParameter name).void
  | .anonymousParameter => (anonymousParameter).void
  | .literal value => (literal value).void
  | .expression operator operands => (expression operator operands).void
  | .eq left right => (eq left right).void
  | .and operands => (and operands).void
  | .select statement expression => select statement expression
  | .restrict statement predicate => restrict statement predicate
  | .groupBy statement expression => groupBy statement expression
  | .having statement predicate => having statement predicate
  | .orderBy statement expression ascending =>
      (orderBy statement expression ascending).void
  | .assign statement target value => (assign statement target value).void
  | .distinct statement value => distinct statement value

/-- A building call leaves the tree that its operation ends with. -/
theorem after_run (call : BuilderCall) (tree : Tree) : after (run call) tree = tree.build call := by
  cases call <;> first | rfl | exact after_bind_pure _ _ tree

theorem atomic_run (call : BuilderCall) : tree.Atomic (run call tree) := by
  cases call with
  | subquery parent => exact atomic_void (atomic_subquery parent)
  | root statement recordType =>
      exact atomic_void (atomic_root statement recordType)
  | join parent field direction mode =>
      exact atomic_void (atomic_join parent field direction mode)
  | correlate subquery outer => exact atomic_void (atomic_correlate subquery outer)
  | fetch parent field direction collection =>
      exact atomic_void (atomic_fetch parent field direction collection)
  | setAlias source name => exact atomic_mutate source _
  | setOn join condition => exact atomic_setOn join condition
  | access parent field => exact atomic_void (atomic_access parent field)
  | accessAll parent fields => exact atomic_void (atomic_accessAll parent fields)
  | treat target asType => exact atomic_void (atomic_treat target asType)
  | namedParameter name => exact atomic_push _
  | anonymousParameter => exact atomic_push _
  | literal value => exact atomic_push _
  | expression operator operands =>
      exact atomic_void (atomic_expression operator operands)
  | eq left right => exact atomic_void (atomic_expression .eq [left, right])
  | and operands => exact atomic_void (atomic_expression .and operands)
  | select statement expression => exact atomic_addToClause statement expression _ _
  | restrict statement predicate => exact atomic_restrict statement predicate
  | groupBy statement expression => exact atomic_addToClause statement expression _ _
  | having statement predicate => exact atomic_having statement predicate
  | orderBy statement expression ascending =>
      exact atomic_void (atomic_orderBy statement expression ascending)
  | assign statement target value =>
      exact atomic_void (atomic_assign statement target value)
  | distinct statement value => exact atomic_distinct statement value

end Build

namespace Tree

/-- Building calls leave a held node as it was, and held. -/
theorem node?_performAll_build_of_frozen
    {tree : Tree}
    {node : NodeId}
    (frozen : tree.isFrozen node = true)
    (calls : List BuilderCall) :
    (tree.performAll (calls.map .build)).node? node = tree.node? node := by
  induction calls generalizing tree with
  | nil => rfl
  | cons call calls inductionHypothesis =>
      have stillFrozen : (tree.build call).isFrozen node = true := by
        unfold isFrozen frozenBy
        rw [hold_build]
        exact frozen
      rw [List.map_cons, performAll_cons]
      exact (inductionHypothesis stillFrozen).trans (node?_perform_of_frozen (.build call) frozen)

/-- Every building call is atomic, whatever it is given: refused, it leaves the nodes and the
holds as they were, and otherwise it adds free nodes at the end and changes at most one older
node, which was free. So no building calls change a node that is held while they are made,
and in a sequence of calls of all kinds no call changes a node that is held just before it. -/
theorem build_atomic (tree : Tree) :
    (∀ call, tree.perform (.build call) = Build.after (Build.run call) tree ∧
      tree.Atomic (Build.run call tree)) ∧
    (∀ (calls : List BuilderCall) node, tree.isFrozen node = true ->
      (tree.performAll (calls.map .build)).node? node = tree.node? node) ∧
    ∀ calls call node, (tree.performAll calls).isFrozen node = true ->
      ((tree.performAll calls).perform call).node? node = (tree.performAll calls).node? node :=
  ⟨fun call => ⟨(Build.after_run call tree).symm, Build.atomic_run call⟩,
    fun calls _ frozen => node?_performAll_build_of_frozen frozen calls,
    fun _ call _ frozen => node?_perform_of_frozen call frozen⟩

end Tree
end QueryGraph
