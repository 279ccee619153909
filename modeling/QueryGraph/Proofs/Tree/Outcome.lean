import QueryGraph.Proofs.Tree.Frame

/-!
# What an operation of the builder has done when it succeeds

An operation that makes a node returns its number, which is the next one. One that adds to a
statement changes that statement, and one that declares below a source changes that source. Apart
from that all outlines are kept.
-/

namespace QueryGraph

open Operation

namespace Build

variable {before after : Tree} {id parent statement : NodeId} {closed : NodeId -> Prop}

theorem changes_of_done
    {action : Build α}
    {value : α}
    (changes : before.Changes (Build.after action before))
    (done : action before = .ok value after) :
    before.Changes after := by
  unfold Build.after at changes
  rwa [done] at changes

theorem mutate_eq_ok
    {change : Node -> Except TreeError Node}
    (done : mutate id change before = .ok () after) :
    ∃ node changed, before.node? id = some node ∧ change node = .ok changed ∧
      after = before.replace id changed := by
  unfold mutate at done
  rw [bind_of_ok (get_apply before)] at done
  cases found : before.node id with
  | error error =>
      simp only [found] at done
      cases done
  | ok node =>
      simp only [found] at done
      by_cases frozen : before.isFrozen id = true
      · rw [if_pos frozen] at done
        cases done
      · rw [if_neg frozen] at done
        cases accepted : change node with
        | error error =>
            rw [accepted] at done
            cases done
        | ok changed =>
            rw [accepted] at done
            cases done
            exact ⟨node, changed, Tree.node_eq_ok.mp found, accepted, rfl⟩

theorem mutate_eq_ok_of_found
    {change : Node -> Except TreeError Node}
    {node changed : Node}
    (found : before.node? id = some node)
    (accepted : change node = .ok changed)
    (done : mutate id change before = .ok () after) :
    after = before.replace id changed := by
  obtain ⟨_, _, again, acceptedAgain, rfl⟩ := mutate_eq_ok done
  rw [found] at again
  cases again
  rw [accepted] at acceptedAgain
  cases acceptedAgain
  rfl

theorem mutateStatement_eq_ok_of_found
    {body : Statement}
    {grow : Statement -> Statement}
    (found : before.node? id = some (.statement body))
    (done : mutateStatement id grow before = .ok () after) :
    after = before.replace id (.statement (grow body)) :=
  mutate_eq_ok_of_found found rfl done

/-- A node was made and listed in an older one. -/
theorem adopt_eq_ok
    {child node grown : Node}
    {change : NodeId -> Node -> Except TreeError Node}
    (found : before.node? parent = some node)
    (accepted : change ⟨before.size⟩ node = .ok grown)
    (done : (do
      let child ← push child
      mutate parent (change child)
      return child) before = .ok id after) :
    id = ⟨before.size⟩ ∧ after = (before.push child).replace parent grown := by
  rw [bind_of_ok (show push child before = .ok ⟨before.size⟩ (before.push child) from rfl)] at done
  obtain ⟨⟨⟩, replaced, mutated, last⟩ := bind_eq_ok.mp done
  cases last
  exact ⟨rfl, mutate_eq_ok_of_found (Tree.node?_push_of_some child found) accepted mutated⟩

/-! ## Operations that make a node -/

theorem of_subquery
    (done : subquery parent before = .ok id after) :
    id = ⟨before.size⟩ ∧ before.Grows closed after ∧
      after.outline? id = some (.statement { kind := .subquery, parent := some parent }) := by
  have changes := changes_of_done (subquery_changes parent before) done
  obtain ⟨body, _, checked, pushed⟩ := bind_eq_ok.mp done
  obtain ⟨rfl, -⟩ := (read_checks _).of_ok checked
  cases pushed
  exact ⟨rfl, .push changes fun _ => nofun, Tree.outline?_of_node? (Tree.node?_push_size _ _)⟩

theorem of_access
    {field : String}
    (done : access parent field before = .ok id after) :
    before.Grows closed after ∧ after.node? id = some (.path parent field) := by
  have changes := changes_of_done (access_changes parent field before) done
  obtain ⟨_, _, checked, pushed⟩ := bind_eq_ok.mp done
  obtain ⟨rfl, -⟩ := (expectPathParent_checks parent).of_ok checked
  cases pushed
  exact ⟨.push changes fun _ => nofun, Tree.node?_push_size _ _⟩

theorem of_treat
    {asType : String}
    (done : treat parent asType before = .ok id after) :
    before.HasPathLike parent ∧ before.Grows closed after ∧
      after.node? id = some (.treat parent asType) := by
  have changes := changes_of_done (treat_changes parent asType before) done
  obtain ⟨_, _, checked, pushed⟩ := bind_eq_ok.mp done
  obtain ⟨rfl, isPathLike⟩ := (expectPathParent_checks parent).of_ok checked
  cases pushed
  exact ⟨isPathLike, .push changes fun _ => nofun, Tree.node?_push_size _ _⟩

theorem of_literal
    {value : Literal}
    (done : literal value before = .ok id after) :
    before.Grows closed after ∧ after.node? id = some (.literal value) := by
  cases done
  exact ⟨.push (.single (.added _ (.literal value))) fun _ => nofun, Tree.node?_push_size _ _⟩

theorem of_expression
    {operator : Operator}
    {operands : List NodeId}
    (done : expression operator operands before = .ok id after) :
    id = ⟨before.size⟩ ∧ (∀ operand ∈ operands, before.HasExpression operand) ∧
      before.Grows closed after ∧ after.node? id = some (.expression operator operands) := by
  have changes := changes_of_done (expression_changes operator operands before) done
  obtain ⟨_, _, checked, pushed⟩ := bind_eq_ok.mp done
  obtain ⟨rfl, areExpressions⟩ := (expectExpressions_checks operands).of_ok checked
  cases pushed
  exact ⟨rfl, areExpressions, .push changes fun _ => nofun, Tree.node?_push_size _ _⟩

/-! ## Operations on sources -/

theorem of_root
    {recordType : String}
    (done : root statement recordType before = .ok id after) :
    id = ⟨before.size⟩ ∧
      before.Amends statement (fun body => { body with roots := body.roots ++ [id] }) after ∧
      after.outline? id = some (.source { statement := statement, kind := .root recordType }) := by
  have changes := changes_of_done (root_changes statement recordType before) done
  obtain ⟨body, _, checked, rest⟩ := bind_eq_ok.mp done
  obtain ⟨rfl, found, -⟩ := (writableStatement_checks statement).of_ok checked
  obtain ⟨rfl, rfl⟩ := adopt_eq_ok found rfl rest
  exact ⟨rfl, .adopt changes found (fun _ => nofun) fun _ _ => rfl,
    Tree.outline?_of_node? (Tree.node?_adopt_child found)⟩

theorem of_join
    {field : String}
    {direction : JoinDirection}
    {mode : JoinMode}
    (done : join parent field direction mode before = .ok id after) :
    id = ⟨before.size⟩ ∧ before.Grows (fun other => other ≠ parent) after ∧
      ∀ body, before.outline? parent = some (.source body) ->
        after.outline? parent = some (.source { body with joins := body.joins ++ [id] }) ∧
        after.outline? id = some (.source {
          statement := body.statement
          kind := .join parent field direction mode none }) := by
  have changes := changes_of_done (join_changes parent field direction mode before) done
  obtain ⟨body, _, checked, rest⟩ := bind_eq_ok.mp done
  obtain ⟨rfl, found, -⟩ := (joinableSource_checks parent).of_ok checked
  obtain ⟨rfl, rfl⟩ := adopt_eq_ok found rfl rest
  refine ⟨rfl, .adopt changes found (fun _ => nofun) (fun _ => nofun) fun differs =>
    absurd rfl differs, fun outlined same => ?_⟩
  rw [Tree.outline?_of_node? found] at same
  obtain rfl := Node.source.inj (Option.some.inj same)
  exact ⟨Tree.outline?_of_node? (Tree.node?_adopt_parent found),
    Tree.outline?_of_node? (Tree.node?_adopt_child found)⟩

/-- A correlated source was made and listed in the subquery. -/
theorem correlate_eq_ok
    {outer : NodeId}
    (done : correlate statement outer before = .ok id after) :
    ∃ body, before.node? statement = some (.statement body) ∧ id = ⟨before.size⟩ ∧
      after = (before.push (.source { statement := statement, kind := .correlated outer })).replace
        statement (.statement { body with correlations := body.correlations ++ [id] }) := by
  obtain ⟨body, _, checked, rest⟩ := bind_eq_ok.mp done
  obtain ⟨rfl, found, -⟩ := (writableStatement_checks statement).of_ok checked
  by_cases isSubquery : body.kind = .subquery
  · rw [if_neg (by simp [isSubquery])] at rest
    obtain ⟨source, _, sourceRead, look⟩ := bind_eq_ok.mp rest
    obtain ⟨rfl, -⟩ := (read_checks _).of_ok sourceRead
    cases within : body.parent with
    | none =>
        rw [within] at look
        cases look
    | some around =>
        rw [within] at look
        obtain ⟨visible, _, visibleRead, adopted⟩ := bind_eq_ok.mp look
        obtain ⟨rfl, -⟩ := (read_checks _).of_ok visibleRead
        cases visible with
        | false => cases adopted
        | true =>
            obtain ⟨rfl, rfl⟩ := adopt_eq_ok found rfl adopted
            exact ⟨body, found, rfl, rfl⟩
  · rw [if_pos isSubquery] at rest
    cases rest

theorem of_correlate
    {outer : NodeId}
    (done : correlate statement outer before = .ok id after) :
    before.Grows closed after ∧
      after.node? id = some (.source { statement := statement, kind := .correlated outer }) := by
  have changes := changes_of_done (correlate_changes statement outer before) done
  obtain ⟨body, found, rfl, rfl⟩ := correlate_eq_ok done
  exact ⟨.adopt changes found (fun _ => nofun) (fun _ => nofun) fun _ => rfl,
    Tree.node?_adopt_child found⟩

theorem of_fetch
    {field : String}
    {direction : JoinDirection}
    {collection : CollectionFetch}
    (done : fetch parent field direction collection before = .ok id after) :
    before.Grows closed after := by
  have changes := changes_of_done (fetch_changes parent field direction collection before) done
  obtain ⟨node, _, checked, rest⟩ := bind_eq_ok.mp done
  obtain ⟨rfl, read⟩ := (read_checks _).of_ok checked
  have found := Tree.node_eq_ok.mp read
  cases node with
  | source body =>
      obtain ⟨source, _, sourceChecked, adopted⟩ := bind_eq_ok.mp rest
      obtain ⟨rfl, -⟩ := (joinableSource_checks parent).of_ok sourceChecked
      obtain ⟨rfl, rfl⟩ := adopt_eq_ok found rfl adopted
      exact .adopt changes found (fun _ => nofun) (fun _ => nofun) fun _ => rfl
  | fetch body =>
      obtain ⟨current, _, same, adopted⟩ := bind_eq_ok.mp rest
      obtain ⟨rfl, rfl⟩ := Checks.get.of_ok same
      split at adopted
      · cases adopted
      · obtain ⟨rfl, rfl⟩ := adopt_eq_ok found rfl adopted
        exact .adopt changes found (fun _ => nofun) (fun _ => nofun) fun _ => rfl
  | _ => cases rest

theorem of_setAlias
    {name : String}
    (done : setAlias id name before = .ok () after) :
    before.Grows closed after := by
  have changes := changes_of_done (setAlias_changes id name before) done
  obtain ⟨node, changed, found, accepted, rfl⟩ := mutate_eq_ok done
  cases node with
  | source body =>
      cases accepted
      exact .replace changes found (fun _ => nofun) fun _ => rfl
  | _ => cases accepted

theorem of_setOn
    {condition : NodeId}
    (done : setOn id condition before = .ok () after) :
    before.Grows (fun other => other ≠ id) after ∧
      ∀ body, before.outline? id = some (.source body) ->
        ∃ later : Source, after.outline? id = some (.source later) ∧ later.joins = body.joins ∧
          later.condition? = some condition := by
  have changes := changes_of_done (setOn_changes id condition before) done
  obtain ⟨_, _, checked, rest⟩ := bind_eq_ok.mp done
  obtain ⟨rfl, -⟩ := (expectExpression_checks condition).of_ok checked
  obtain ⟨node, changed, found, accepted, rfl⟩ := mutate_eq_ok rest
  cases node with
  | source body =>
      cases kind : body.kind with
      | join parent field direction mode on =>
          simp only [kind] at accepted
          cases accepted
          refine ⟨.replace changes found (fun _ => nofun) fun differs => absurd rfl differs,
            fun outlined same => ?_⟩
          rw [Tree.outline?_of_node? found] at same
          obtain rfl := Node.source.inj (Option.some.inj same)
          exact ⟨_, Tree.outline?_of_node? (Tree.node?_replace_self _ found), rfl, rfl⟩
      | root recordType => simp [kind] at accepted
      | correlated outer => simp [kind] at accepted
  | _ => cases accepted

/-! ## Operations on statements -/

/-- An expression was added to a clause that some kinds of statements have. -/
theorem amends_of_add
    {clause : ClauseKind}
    {allowed : List StatementKind}
    {grow : Statement -> Statement}
    (changes : before.Changes after)
    (ignores : Tree.IgnoresCorrelations grow)
    (done : (do
      let _ ← statementWithClause statement clause allowed
      expectExpression id
      mutateStatement statement grow) before = .ok () after) :
    (∃ body, before.node? statement = some (.statement body) ∧ body.kind ∈ allowed) ∧
      before.Amends statement grow after := by
  obtain ⟨body, _, checked, rest⟩ := bind_eq_ok.mp done
  obtain ⟨rfl, found, -, isAllowed⟩ := (statementWithClause_checks statement _ _).of_ok checked
  obtain ⟨_, _, expressionChecked, mutated⟩ := bind_eq_ok.mp rest
  obtain ⟨rfl, -⟩ := (expectExpression_checks id).of_ok expressionChecked
  obtain rfl := mutateStatement_eq_ok_of_found found mutated
  exact ⟨⟨body, found, isAllowed⟩, .replace changes found ignores⟩

theorem of_select
    (done : select statement id before = .ok () after) :
    (∃ body, before.node? statement = some (.statement body) ∧ body.kind ∈ selecting) ∧
      before.Amends statement (fun body => { body with selection := body.selection ++ [id] })
        after :=
  amends_of_add (changes_of_done (select_changes statement id before) done) (fun _ _ => rfl) done

theorem of_groupBy
    (done : groupBy statement id before = .ok () after) :
    (∃ body, before.node? statement = some (.statement body) ∧ body.kind ∈ selecting) ∧
      before.Amends statement (fun body => { body with groupList := body.groupList ++ [id] })
        after :=
  amends_of_add (changes_of_done (groupBy_changes statement id before) done) (fun _ _ => rfl) done

theorem of_distinct
    {value : Bool}
    (done : distinct statement value before = .ok () after) :
    before.Amends statement (fun body => { body with distinct := value }) after := by
  have changes := changes_of_done (distinct_changes statement value before) done
  obtain ⟨body, _, checked, rest⟩ := bind_eq_ok.mp done
  obtain ⟨rfl, found, -⟩ := (statementWithClause_checks statement _ _).of_ok checked
  obtain rfl := mutateStatement_eq_ok_of_found found rest
  exact .replace changes found fun _ _ => rfl

/-- A predicate becomes the restriction of a statement that had none. -/
theorem of_restrict
    {body : Statement}
    (found : before.outline? statement = some (.statement body))
    (unrestricted : body.restriction = none)
    (done : restrict statement id before = .ok () after) :
    before.Amends statement (fun body => { body with restriction := some id }) after := by
  have changes := changes_of_done (restrict_changes statement id before) done
  obtain ⟨full, _, checked, rest⟩ := bind_eq_ok.mp done
  obtain ⟨rfl, present, -⟩ := (writableStatement_checks statement).of_ok checked
  rw [Tree.outline?_of_node? present] at found
  obtain rfl := Node.statement.inj (Option.some.inj found)
  replace unrestricted : full.restriction = none := unrestricted
  obtain ⟨_, _, expressionChecked, combined⟩ := bind_eq_ok.mp rest
  obtain ⟨rfl, -⟩ := (expectExpression_checks id).of_ok expressionChecked
  rw [unrestricted] at combined
  obtain rfl := mutateStatement_eq_ok_of_found present combined
  exact .replace changes present fun _ _ => rfl

/-- A predicate becomes the restriction of the groups of a statement that had none. -/
theorem of_having
    {body : Statement}
    (found : before.outline? statement = some (.statement body))
    (unrestricted : body.groupRestriction = none)
    (done : having statement id before = .ok () after) :
    (∃ body, before.node? statement = some (.statement body) ∧ body.kind ∈ selecting) ∧
      before.Amends statement (fun body => { body with groupRestriction := some id }) after := by
  have changes := changes_of_done (having_changes statement id before) done
  obtain ⟨full, _, checked, rest⟩ := bind_eq_ok.mp done
  obtain ⟨rfl, present, -, selects⟩ := (statementWithClause_checks statement _ _).of_ok checked
  rw [Tree.outline?_of_node? present] at found
  obtain rfl := Node.statement.inj (Option.some.inj found)
  replace unrestricted : full.groupRestriction = none := unrestricted
  obtain ⟨_, _, expressionChecked, combined⟩ := bind_eq_ok.mp rest
  obtain ⟨rfl, -⟩ := (expectExpression_checks id).of_ok expressionChecked
  rw [unrestricted] at combined
  obtain rfl := mutateStatement_eq_ok_of_found present combined
  exact ⟨⟨full, present, selects⟩, .replace changes present fun _ _ => rfl⟩

theorem of_orderBy
    {item : NodeId}
    {ascending : Bool}
    (done : orderBy statement item ascending before = .ok id after) :
    (∃ body, before.node? statement = some (.statement body) ∧ body.kind = .query) ∧
      before.Amends statement (fun body => { body with orderList := body.orderList ++ [id] })
        after ∧
      item.index < id.index ∧ after.node? id = some (.order item ascending) := by
  have changes := changes_of_done (orderBy_changes statement item ascending before) done
  obtain ⟨body, _, checked, rest⟩ := bind_eq_ok.mp done
  obtain ⟨rfl, found, -, isQuery⟩ := (statementWithClause_checks statement _ _).of_ok checked
  obtain ⟨_, _, expressionChecked, adopted⟩ := bind_eq_ok.mp rest
  obtain ⟨rfl, isExpression⟩ := (expectExpression_checks item).of_ok expressionChecked
  obtain ⟨rfl, rfl⟩ := adopt_eq_ok found rfl adopted
  exact ⟨⟨body, found, by simpa using isQuery⟩,
    .adopt changes found (fun _ => nofun) fun _ _ => rfl, isExpression.lt_size,
    Tree.node?_adopt_child found⟩

theorem of_assign
    {target value : NodeId}
    (done : assign statement target value before = .ok id after) :
    (∃ body, before.node? statement = some (.statement body) ∧ body.kind = .update) ∧
      before.Amends statement (fun body => { body with assignments := body.assignments ++ [id] })
        after ∧
      target.index < id.index ∧ value.index < id.index ∧
      after.node? id = some (.assignment target value) := by
  have changes := changes_of_done (assign_changes statement target value before) done
  obtain ⟨body, _, checked, rest⟩ := bind_eq_ok.mp done
  obtain ⟨rfl, found, -, isUpdate⟩ := (statementWithClause_checks statement _ _).of_ok checked
  obtain ⟨node, _, targetRead, look⟩ := bind_eq_ok.mp rest
  obtain ⟨rfl, read⟩ := (read_checks _).of_ok targetRead
  have targetFound := Tree.node_eq_ok.mp read
  cases node with
  | path above field =>
      obtain ⟨_, _, expressionChecked, adopted⟩ := bind_eq_ok.mp look
      obtain ⟨rfl, isExpression⟩ := (expectExpression_checks value).of_ok expressionChecked
      obtain ⟨rfl, rfl⟩ := adopt_eq_ok found rfl adopted
      exact ⟨⟨body, found, by simpa using isUpdate⟩,
        .adopt changes found (fun _ => nofun) fun _ _ => rfl,
        Tree.lt_size_of_node? targetFound, isExpression.lt_size, Tree.node?_adopt_child found⟩
  | _ => cases look

end Build
end QueryGraph
