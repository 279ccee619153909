import QueryGraph.Proofs.Tree.Frame
import QueryGraph.Proofs.Tree.Outcome
import QueryGraph.Proofs.Tree.Rosters

/-!
# Correlated sources that stay

One operation of the builder makes a source of an enclosing statement visible in a subquery. After
any other one, all statements correlate the same sources as before.
-/

namespace QueryGraph

open Operation

namespace Tree

variable {tree before between after : Tree} {id : NodeId} {closed wider : NodeId -> Prop}

/-- The sources that a statement correlates, in the order in which they were made. -/
def correlated (tree : Tree) (id : NodeId) : List NodeId := tree.members .correlations id

theorem Rostered.correlations_eq
    {body : Statement}
    (rostered : tree.Rostered)
    (found : tree.node? id = some (.statement body)) :
    body.correlations = tree.correlated id :=
  rostered.roster_eq id _ found .correlations

theorem correlated_push
    {added : Node}
    (other : ∀ id, added.enrolled? ≠ some (.correlations, id)) :
    (tree.push added).correlated = tree.correlated := by
  funext id
  rw [correlated, members_push, if_neg (other id), List.append_nil, correlated]

theorem correlated_replace
    {node changed : Node}
    (found : tree.node? id = some node)
    (same : changed.shape = node.shape) :
    (tree.replace id changed).correlated = tree.correlated := by
  funext other
  exact members_of_evolves (.replace found same) (size_replace _ _ _) .correlations other

/-- Some statements of a tree correlate the same sources in a later one. -/
def KeepsCorrelated
    (before : Tree)
    (closed : NodeId -> Prop)
    (after : Tree) : Prop :=
  ∀ id, id.index < before.size -> closed id -> after.correlated id = before.correlated id

namespace KeepsCorrelated

theorem of_eq (same : after.correlated = before.correlated) :
    before.KeepsCorrelated closed after :=
  fun id _ _ => congrFun same id

/-- The second of two steps may correlate sources in whatever the first one has made. -/
theorem andThen
    (earlier : before.KeepsCorrelated closed between)
    (later : between.KeepsCorrelated wider after)
    (le : before.size ≤ between.size)
    (narrower : ∀ id, id.index < before.size -> closed id -> wider id) :
    before.KeepsCorrelated closed after :=
  fun id older isClosed =>
    (later id (Nat.lt_of_lt_of_le older le) (narrower id older isClosed)).trans
      (earlier id older isClosed)

theorem mono
    (keeps : before.KeepsCorrelated wider after)
    (narrower : ∀ id, id.index < before.size -> closed id -> wider id) :
    before.KeepsCorrelated closed after :=
  fun id older isClosed => keeps id older (narrower id older isClosed)

end KeepsCorrelated
end Tree

namespace Build

variable {statement parent id : NodeId}

/-- An operation after which all statements correlate the same sources as before. -/
def Uncorrelating (action : Build α) : Prop :=
  ∀ ⦃before after : Tree⦄ ⦃value : α⦄, action before = .ok value after ->
    after.correlated = before.correlated

namespace Uncorrelating

theorem of_pure (value : α) : Uncorrelating (pure value) := by
  intro before after result done
  cases done
  rfl

theorem of_throw_bind
    (error : TreeError)
    (rest : α -> Build β) :
    Uncorrelating ((throw error : Build α) >>= rest) := by
  intro before after value done
  cases done

theorem of_checks
    {check : Build α}
    {fact : Tree -> α -> Prop}
    (checks : Checks check fact) :
    Uncorrelating check :=
  fun _ _ _ done => by rw [(checks.of_ok done).1]

theorem bind
    {first : Build α}
    {rest : α -> Build β}
    (firstKeeps : Uncorrelating first)
    (restKeeps : ∀ value, Uncorrelating (rest value)) :
    Uncorrelating (first >>= rest) := by
  intro before after value done
  obtain ⟨middle, between, firstDone, restDone⟩ := bind_eq_ok.mp done
  exact (restKeeps middle restDone).trans (firstKeeps firstDone)

theorem of_push
    {node : Node}
    (other : ∀ id, node.enrolled? ≠ some (.correlations, id)) :
    Uncorrelating (push node) := by
  intro before after value done
  cases done
  exact Tree.correlated_push other

theorem of_mutate
    {change : Node -> Except TreeError Node}
    (same : ∀ node changed, change node = .ok changed -> changed.shape = node.shape) :
    Uncorrelating (mutate id change) := by
  intro before after value done
  obtain ⟨node, changed, found, accepted, rfl⟩ := mutate_eq_ok done
  exact Tree.correlated_replace found (same node changed accepted)

/-- The clauses of a statement do not belong to its shape. -/
theorem of_mutateStatement
    {grow : Statement -> Statement}
    (same : ∀ body, (Node.statement (grow body)).shape = (Node.statement body).shape) :
    Uncorrelating (mutateStatement id grow) := by
  refine of_mutate fun node changed accepted => ?_
  cases node <;> cases accepted <;> first | rfl | exact same _

/-- A node is made and listed in an older one. -/
theorem of_adopt
    {child : Node}
    {change : NodeId -> Node -> Except TreeError Node}
    (other : ∀ id, child.enrolled? ≠ some (.correlations, id))
    (same : ∀ id node changed, change id node = .ok changed -> changed.shape = node.shape) :
    Uncorrelating (do
      let child ← push child
      mutate parent (change child)
      return child) :=
  (of_push other).bind fun made => (of_mutate (same made)).bind fun _ => of_pure _

end Uncorrelating

/-! ## The operations -/

open Uncorrelating

theorem uncorrelating_subquery : Uncorrelating (subquery parent) :=
  (of_checks (read_checks _)).bind fun _ => of_push nofun

theorem uncorrelating_root (recordType : String) : Uncorrelating (root statement recordType) := by
  refine (of_checks (writableStatement_checks statement)).bind fun _ =>
    of_adopt nofun fun _ node changed accepted => ?_
  cases node <;> cases accepted <;> rfl

theorem uncorrelating_join
    (field : String)
    (direction : JoinDirection)
    (mode : JoinMode) :
    Uncorrelating (join parent field direction mode) := by
  refine (of_checks (joinableSource_checks parent)).bind fun _ =>
    of_adopt nofun fun _ node changed accepted => ?_
  cases node <;> cases accepted <;> rfl

theorem uncorrelating_fetch
    (field : String)
    (direction : JoinDirection)
    (collection : CollectionFetch) :
    Uncorrelating (fetch parent field direction collection) := by
  refine (of_checks (read_checks _)).bind fun node => ?_
  cases node with
  | source body =>
      refine (of_checks (joinableSource_checks parent)).bind fun _ =>
        of_adopt nofun fun _ node changed accepted => ?_
      cases node <;> cases accepted <;> rfl
  | fetch body =>
      refine (of_checks Checks.get).bind fun tree => ?_
      by_cases frozen : tree.isFrozen parent = true
      · simp only [frozen, if_true]
        exact of_throw_bind _ _
      · simp only [frozen]
        refine of_adopt nofun fun _ node changed accepted => ?_
        cases node <;> cases accepted <;> rfl
  | _ => exact of_throw_bind _ _

theorem uncorrelating_setAlias (name : String) : Uncorrelating (setAlias id name) := by
  refine of_mutate fun node changed accepted => ?_
  cases node <;> cases accepted
  rfl

theorem uncorrelating_setOn (condition : NodeId) : Uncorrelating (setOn id condition) := by
  refine (of_checks (expectExpression_checks condition)).bind fun _ =>
    of_mutate fun node changed accepted => ?_
  cases node with
  | source body =>
      cases kind : body.kind with
      | join parent field direction mode on =>
          simp only [kind] at accepted
          cases accepted
          simp only [Node.shape, SourceKind.shape, kind]
      | _ => simp [kind] at accepted
  | _ => cases accepted

theorem uncorrelating_access (field : String) : Uncorrelating (access parent field) :=
  (of_checks (expectPathParent_checks parent)).bind fun _ => of_push nofun

theorem uncorrelating_treat (asType : String) : Uncorrelating (treat parent asType) :=
  (of_checks (expectPathParent_checks parent)).bind fun _ => of_push nofun

theorem uncorrelating_parameter (name : Option String) :
    Uncorrelating (push (.parameter name)) :=
  of_push nofun

theorem uncorrelating_literal (value : Literal) : Uncorrelating (literal value) := of_push nofun

theorem uncorrelating_expression
    (operator : Operator)
    (operands : List NodeId) :
    Uncorrelating (expression operator operands) :=
  (of_checks (expectExpressions_checks operands)).bind fun _ => of_push nofun

/-- An expression is added to a clause of a statement. -/
theorem uncorrelating_add
    {clause : ClauseKind}
    {allowed : List StatementKind}
    {grow : Statement -> Statement}
    (same : ∀ body, (Node.statement (grow body)).shape = (Node.statement body).shape) :
    Uncorrelating (do
      let _ ← statementWithClause statement clause allowed
      expectExpression id
      mutateStatement statement grow) :=
  (of_checks (statementWithClause_checks statement _ _)).bind fun _ =>
    (of_checks (expectExpression_checks id)).bind fun _ => of_mutateStatement same

theorem uncorrelating_select : Uncorrelating (select statement id) :=
  uncorrelating_add fun _ => rfl

theorem uncorrelating_groupBy : Uncorrelating (groupBy statement id) :=
  uncorrelating_add fun _ => rfl

theorem uncorrelating_distinct (value : Bool) : Uncorrelating (distinct statement value) :=
  (of_checks (statementWithClause_checks statement _ _)).bind fun _ =>
    of_mutateStatement fun _ => rfl

theorem uncorrelating_combine (existing : Option NodeId) : Uncorrelating (combine existing id) := by
  cases existing with
  | none => exact of_pure id
  | some previous => exact uncorrelating_expression .and [previous, id]

theorem uncorrelating_restrict : Uncorrelating (restrict statement id) :=
  (of_checks (writableStatement_checks statement)).bind fun _ =>
    (of_checks (expectExpression_checks id)).bind fun _ =>
      (uncorrelating_combine _).bind fun _ => of_mutateStatement fun _ => rfl

theorem uncorrelating_having : Uncorrelating (having statement id) :=
  (of_checks (statementWithClause_checks statement _ _)).bind fun _ =>
    (of_checks (expectExpression_checks id)).bind fun _ =>
      (uncorrelating_combine _).bind fun _ => of_mutateStatement fun _ => rfl

theorem uncorrelating_orderBy (ascending : Bool) :
    Uncorrelating (orderBy statement id ascending) := by
  refine (of_checks (statementWithClause_checks statement _ _)).bind fun _ =>
    (of_checks (expectExpression_checks id)).bind fun _ =>
      of_adopt nofun fun _ node changed accepted => ?_
  cases node <;> cases accepted <;> rfl

theorem uncorrelating_assign (target : NodeId) : Uncorrelating (assign statement target id) := by
  refine (of_checks (statementWithClause_checks statement _ _)).bind fun _ =>
    (of_checks (read_checks _)).bind fun node => ?_
  cases node with
  | path above field =>
      refine (of_checks (expectExpression_checks id)).bind fun _ =>
        of_adopt nofun fun _ node changed accepted => ?_
      cases node <;> cases accepted <;> rfl
  | _ =>
      intro before after value done
      cases done

/-- The one operation that correlates a source does so for one statement. -/
theorem correlated_correlate
    {before after : Tree}
    {outer : NodeId}
    (done : correlate statement outer before = .ok id after) :
    after.correlated statement = before.correlated statement ++ [id] ∧
      ∀ other, other ≠ statement -> after.correlated other = before.correlated other := by
  obtain ⟨body, found, rfl, rfl⟩ := correlate_eq_ok done
  have sameShape : (Node.statement
      { body with correlations := body.correlations ++ [⟨before.size⟩] }).shape =
        (Node.statement body).shape := rfl
  rw [Tree.correlated_replace (Tree.node?_push_of_some _ found) sameShape]
  simp only [Tree.correlated, Tree.members_push, Node.enrolled?]
  refine ⟨by simp, fun other differs => ?_⟩
  simp [differs.symm]

end Build
end QueryGraph
