import QueryGraph.Proofs.Tree.Change
import QueryGraph.Tree.Freeze

/-!
# Calls on a tree

What a program may do with a tree: build it, and take and give back holds. A tree
is reachable when such calls lead to it from an empty top statement.
-/

namespace QueryGraph

/-- A call of an operation that builds a tree. -/
inductive BuilderCall
  | subquery (parent : NodeId)
  | root
      (statement : NodeId)
      (recordType : String)
  | join
      (parent : NodeId)
      (field : String)
      (direction : JoinDirection)
      (mode : JoinMode)
  | correlate
      (subquery : NodeId)
      (outer : NodeId)
  | fetch
      (parent : NodeId)
      (field : String)
      (direction : JoinDirection)
      (collection : CollectionFetch)
  | setAlias
      (source : NodeId)
      (name : String)
  | setOn
      (join : NodeId)
      (condition : NodeId)
  | access
      (parent : NodeId)
      (field : String)
  | accessAll
      (parent : NodeId)
      (fields : List String)
  | treat
      (target : NodeId)
      (asType : String)
  | namedParameter (name : String)
  | anonymousParameter
  | literal (value : Literal)
  | expression
      (operator : Operator)
      (operands : List NodeId)
  | eq
      (left : NodeId)
      (right : NodeId)
  | and (operands : List NodeId)
  | select
      (statement : NodeId)
      (expression : NodeId)
  | restrict
      (statement : NodeId)
      (predicate : NodeId)
  | groupBy
      (statement : NodeId)
      (expression : NodeId)
  | having
      (statement : NodeId)
      (predicate : NodeId)
  | orderBy
      (statement : NodeId)
      (expression : NodeId)
      (ascending : Bool)
  | assign
      (statement : NodeId)
      (target : NodeId)
      (value : NodeId)
  | distinct
      (statement : NodeId)
      (distinct : Bool)
  deriving DecidableEq, Repr

/-- A call on a tree. -/
inductive TreeCall
  | build (call : BuilderCall)
  | freeze
      (node : NodeId)
      (owner : Owner)
  | unfreeze
      (node : NodeId)
      (owner : Owner)
  deriving DecidableEq, Repr

/-- The owner on whose behalf a call takes or gives back a hold. -/
def TreeCall.owner? : TreeCall -> Option Owner
  | .build _ => none
  | .freeze _ owner => some owner
  | .unfreeze _ owner => some owner

namespace Tree

/-- The tree that a building call leaves, whether it succeeds or is refused. -/
def build (tree : Tree) : BuilderCall -> Tree
  | .subquery parent => Build.after (Build.subquery parent) tree
  | .root statement recordType => Build.after (Build.root statement recordType) tree
  | .join parent field direction mode =>
      Build.after (Build.join parent field direction mode) tree
  | .correlate subquery outer => Build.after (Build.correlate subquery outer) tree
  | .fetch parent field direction collection =>
      Build.after (Build.fetch parent field direction collection) tree
  | .setAlias source name => Build.after (Build.setAlias source name) tree
  | .setOn join condition => Build.after (Build.setOn join condition) tree
  | .access parent field => Build.after (Build.access parent field) tree
  | .accessAll parent fields => Build.after (Build.accessAll parent fields) tree
  | .treat target asType => Build.after (Build.treat target asType) tree
  | .namedParameter name => Build.after (Build.namedParameter name) tree
  | .anonymousParameter => Build.after Build.anonymousParameter tree
  | .literal value => Build.after (Build.literal value) tree
  | .expression operator operands => Build.after (Build.expression operator operands) tree
  | .eq left right => Build.after (Build.eq left right) tree
  | .and operands => Build.after (Build.and operands) tree
  | .select statement expression => Build.after (Build.select statement expression) tree
  | .restrict statement predicate => Build.after (Build.restrict statement predicate) tree
  | .groupBy statement expression => Build.after (Build.groupBy statement expression) tree
  | .having statement predicate => Build.after (Build.having statement predicate) tree
  | .orderBy statement expression ascending =>
      Build.after (Build.orderBy statement expression ascending) tree
  | .assign statement target value => Build.after (Build.assign statement target value) tree
  | .distinct statement distinct => Build.after (Build.distinct statement distinct) tree

/-- The tree that a call leaves, whether it succeeds or is refused. -/
def perform (tree : Tree) : TreeCall -> Tree
  | .build call => tree.build call
  | .freeze node owner => Operation.finalState (freeze node owner tree)
  | .unfreeze node owner => Operation.finalState (unfreeze node owner tree)

/-- The tree that several calls leave, one after the other. -/
def performAll (tree : Tree) (calls : List TreeCall) : Tree := calls.foldl perform tree

@[simp] theorem performAll_nil (tree : Tree) : tree.performAll [] = tree := rfl

@[simp] theorem performAll_cons
    (tree : Tree)
    (call : TreeCall)
    (calls : List TreeCall) :
    tree.performAll (call :: calls) = (tree.perform call).performAll calls := rfl

/-- A tree that some calls make out of an empty top statement. -/
def Reachable (tree : Tree) : Prop :=
  ∃ kind calls, tree = (ofKind kind).performAll calls

/-- An owner that holds nothing in a tree. A compilation always begins as such an
owner, because its token was never given out before. -/
def Unclaimed (tree : Tree) (owner : Owner) : Prop :=
  ∀ node, tree.frozenBy node ≠ some owner

/-- What every call preserves holds of every reachable tree. -/
theorem Reachable.induction
    {motive : Tree -> Prop}
    {tree : Tree}
    (reachable : tree.Reachable)
    (start : ∀ kind, motive (ofKind kind))
    (step : ∀ before call, motive before -> motive (before.perform call)) :
    motive tree := by
  obtain ⟨kind, calls, rfl⟩ := reachable
  have run : ∀ before, motive before -> motive (before.performAll calls) := by
    induction calls with
    | nil => exact fun _ holds => holds
    | cons call calls inductionHypothesis =>
        intro before holds
        exact inductionHypothesis _ (step before call holds)
  exact run _ (start kind)

/-! ## What a call does -/

theorem build_changes (tree : Tree) (call : BuilderCall) : tree.Changes (tree.build call) := by
  cases call with
  | subquery parent => exact Build.subquery_changes parent tree
  | root statement recordType => exact Build.root_changes statement recordType tree
  | join parent field direction mode => exact Build.join_changes parent field direction mode tree
  | correlate subquery outer => exact Build.correlate_changes subquery outer tree
  | fetch parent field direction collection =>
      exact Build.fetch_changes parent field direction collection tree
  | setAlias source name => exact Build.setAlias_changes source name tree
  | setOn join condition => exact Build.setOn_changes join condition tree
  | access parent field => exact Build.access_changes parent field tree
  | accessAll parent fields => exact Build.accessAll_changes parent fields tree
  | treat target asType => exact Build.treat_changes target asType tree
  | namedParameter name => exact Build.push_changes (.parameter (some name))
  | anonymousParameter => exact Build.push_changes (.parameter none)
  | literal value => exact Build.push_changes (.literal value)
  | expression operator operands => exact Build.expression_changes operator operands tree
  | eq left right => exact Build.expression_changes .eq [left, right] tree
  | and operands => exact Build.expression_changes .and operands tree
  | select statement expression => exact Build.select_changes statement expression tree
  | restrict statement predicate => exact Build.restrict_changes statement predicate tree
  | groupBy statement expression => exact Build.groupBy_changes statement expression tree
  | having statement predicate => exact Build.having_changes statement predicate tree
  | orderBy statement expression ascending =>
      exact Build.orderBy_changes statement expression ascending tree
  | assign statement target value => exact Build.assign_changes statement target value tree
  | distinct statement distinct => exact Build.distinct_changes statement distinct tree

end Tree
end QueryGraph
