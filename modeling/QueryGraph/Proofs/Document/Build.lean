import QueryGraph.Proofs.Document.Clauses

/-!
# The tree of a document

A statement is filled source by source and clause by clause, and what its clauses yield is read
from them in the order of a walk. A subquery is filled in a scope of its own. By induction on a
document, the statement of its tree yields its forms.
-/

namespace QueryGraph

open Operation

/-- What stands in the clauses of a statement, where a clause that its kind does not have is
empty. -/
theorem Statement.flatMap_itemsWith
    {body : Statement}
    {conditions : List NodeId}
    (selection : body.kind ∈ Build.selecting ∨ body.selection = [])
    (assignments : body.kind = .update ∨ body.assignments = [])
    (groupList : body.kind ∈ Build.selecting ∨ body.groupList = [])
    (groupRestriction : body.kind ∈ Build.selecting ∨ body.groupRestriction.toList = [])
    (orderList : body.kind = .query ∨ body.orderList = []) :
    (Walking.clauses body.kind).flatMap (body.itemsWith conditions) =
      body.selection ++ conditions ++ body.assignments ++ body.restriction.toList ++
        body.groupList ++ body.groupRestriction.toList ++ body.orderList := by
  cases kind : body.kind <;>
    simp_all [Build.selecting, Walking.clauses, Statement.itemsWith]

namespace Document

variable {before between after : Draft} {statement : NodeId} {body : QueryGraph.Statement}
  {filled : List (List NodeId × List Form)} {forms : List Form}

/-- A scope that is opened knows no name yet. -/
theorem Draft.Sound.enter (sound : before.Sound) :
    ({ before with scopes := { statement := statement } :: before.scopes } : Draft).Sound :=
  { sound with scopes := List.forall_mem_cons.mpr ⟨List.forall_mem_nil _, sound.scopes⟩ }

/-! ## Clause by clause -/

/-- A statement that was filled in part, with what each of its clauses yields. -/
structure Draft.Filled
    (before : Draft)
    (statement : NodeId)
    (body : QueryGraph.Statement)
    (filled : List (List NodeId × List Form))
    (after : Draft) : Prop where
  grows : before.Grows (fun other => other ≠ statement) after
  found : after.tree.outline? statement = some (.statement body)
  yields : ∀ clause ∈ filled, after.Yields (statement.index + 1) statement clause.1 clause.2

namespace Draft.Filled

/-- A step after which the outline of the statement is known. -/
theorem later
    {changed : QueryGraph.Statement}
    (earlier : before.Filled statement body filled between)
    (grows : between.Grows (fun other => other ≠ statement) after)
    (found : after.tree.outline? statement = some (.statement changed)) :
    before.Filled statement changed filled after where
  grows := earlier.grows.trans grows
  found := found
  yields clause member := (earlier.yields clause member).of_grows grows fun _ _ newer same =>
    Nat.lt_irrefl _ (same ▸ newer)

/-- One more clause is filled. -/
theorem clause
    {ready : QueryGraph.Statement -> Prop}
    {allowed : StatementKind -> Prop}
    {nodes : ι -> List NodeId}
    {put : ι -> Filling.Change}
    {action : Drafting Unit}
    (earlier : before.Filled statement body filled between)
    (inside : before.Inside statement)
    (sound : before.Sound)
    (fills : Drafting.Fills statement ready allowed nodes put action forms)
    (isReady : ready body)
    (done : action between = .ok () after) :
    ∃ items, (allowed body.kind ∨ nodes items = []) ∧
      before.Filled statement (put items body) ((nodes items, forms) :: filled) after := by
  obtain ⟨grows, items, yields, found, isAllowed⟩ :=
    fills (earlier.grows.inside inside) (earlier.grows.sound sound) earlier.found isReady done
  have next := earlier.later grows found
  refine ⟨items, isAllowed, next.grows, next.found, List.forall_mem_cons.mpr ⟨?_, next.yields⟩⟩
  exact yields.lower (Tree.lt_size_of_outline? earlier.found)

/-- Duplicates are dropped or kept. -/
theorem distinct
    {drops : Bool}
    {rest : PUnit -> Drafting Unit}
    (earlier : before.Filled statement body filled between)
    (done : (if drops then Drafting.onTree (Build.distinct statement true) >>= rest
      else rest ()) between = .ok () after) :
    ∃ middle dropped, before.Filled statement { body with distinct := dropped } filled middle ∧
      rest () middle = .ok () after := by
  cases drops with
  | false => exact ⟨between, body.distinct, earlier, done⟩
  | true =>
      obtain ⟨⟨⟩, middle, made, done⟩ := bind_eq_ok.mp done
      obtain ⟨tree, built, rfl⟩ := Drafting.onTree_eq_ok made
      have amends := Build.of_distinct built
      exact ⟨_, true, earlier.later (.onTree amends.grows) (amends.amended _ earlier.found), done⟩

/-- A statement all clauses of which were filled yields what they yield, in the order of a walk. -/
theorem yieldsStatement
    {conditions : List NodeId}
    {selection on assignments restriction groups having orders : List Form}
    (filled : before.Filled statement body
      [(body.assignments, assignments), (body.orderList, orders),
        (body.groupRestriction.toList, having), (body.groupList, groups),
        (body.restriction.toList, restriction), (body.selection, selection), (conditions, on)]
      after)
    (hasSelection : body.kind ∈ Build.selecting ∨ body.selection = [])
    (hasAssignments : body.kind = .update ∨ body.assignments = [])
    (hasGroups : body.kind ∈ Build.selecting ∨ body.groupList = [])
    (hasHaving : body.kind ∈ Build.selecting ∨ body.groupRestriction.toList = [])
    (hasOrder : body.kind = .query ∨ body.orderList = [])
    (stable : ∀ later : Tree, later.Orderly ->
      after.tree.Keeps (fun other => statement.index ≤ other.index) later ->
        body.roots.flatMap later.conditionsOf = conditions) :
    after.YieldsStatement statement
      (selection ++ on ++ assignments ++ restriction ++ groups ++ having ++ orders) := by
  have yields := filled.yields
  simp only [List.forall_mem_cons] at yields
  obtain ⟨assigned, ordered, groupsRestricted, grouped, restricted, selected, conditioned, -⟩ :=
    yields
  obtain ⟨marks, denotes, inOrder⟩ :=
    (((((selected.append conditioned).append assigned).append restricted).append
      grouped).append groupsRestricted).append ordered
  refine ⟨marks, denotes,
    Tree.yieldsStatement_of_items filled.found (Nat.lt_succ_self _) stable ?_⟩
  rwa [Statement.flatMap_itemsWith hasSelection hasAssignments hasGroups hasHaving hasOrder]

end Draft.Filled

/-! ## Conditions that stay -/

/-- The conditions of a statement are the same in every later tree that keeps its sources. -/
theorem Tree.conditions_of_keeps
    {tree later : Tree}
    {closed : NodeId -> Prop}
    {roots : List (RootOf ε)}
    {ids declared : List NodeId}
    (rooted : tree.Rooted roots ids declared)
    (sources : ∀ id ∈ declared, ∃ body, tree.outline? id = some (.source body))
    (keeps : tree.Keeps closed later)
    (idsClosed : ∀ id ∈ ids, closed id)
    (declaredClosed : ∀ id ∈ declared, closed id)
    (orderly : later.Orderly) :
    ids.flatMap later.conditionsOf = tree.conditionsAt declared := by
  have rootedLater := rooted.of_keeps keeps idsClosed (.of_keeps keeps declaredClosed)
  rw [rootedLater.conditions orderly, Tree.conditionsAt_eq keeps declaredClosed sources]

namespace Drafting

/-! ## Statements -/

/-- An action that fills a statement which was declared with nothing in it. -/
def FillsStatement
    (statement : NodeId)
    (action : Drafting Unit)
    (forms : List Form) : Prop :=
  ∀ ⦃before after : Draft⦄ ⦃kind : StatementKind⦄ ⦃parent : Option NodeId⦄,
    before.Inside statement -> before.Sound ->
      before.tree.outline? statement = some (.statement { kind := kind, parent := parent }) ->
        action before = .ok () after ->
          before.Grows (fun other => other ≠ statement) after ∧
            (∃ body, after.tree.outline? statement = some (.statement body) ∧
              body.parent = parent) ∧
            after.YieldsStatement statement forms

/-- The sources of a statement are declared and get their conditions. -/
theorem filled_of_sources
    {sourced : Draft}
    {roots : List (RootOf Expression)}
    {declared : List NodeId}
    (inside : before.Inside statement)
    (sound : before.Sound)
    (found : before.tree.outline? statement = some (.statement body))
    (declares : DeclaresRoots before statement roots declared sourced)
    (conditioned : ConditionsRoots roots forms)
    (done : conditions roots declared sourced = .ok () after) :
    before.Grows (fun other => other ≠ statement) after ∧
      ∃ ids, after.tree.Rooted roots ids declared ∧
        (∀ id ∈ ids ++ declared, statement.index < id.index) ∧
        (∀ id ∈ declared, ∃ body, after.tree.outline? id = some (.source body)) ∧
        after.Filled statement { body with roots := body.roots ++ ids }
          [(after.tree.conditionsAt declared, forms)] after := by
  have statementOld : statement.index < before.tree.size := Tree.lt_size_of_outline? found
  obtain ⟨ids, rooted, idsNew, listed⟩ := declares.rooted
  have apart : ∀ id ∈ ids, id ∉ declared := fun id member => (idsNew id member).2
  have gives := conditioned (declares.grows.inside inside) (declares.grows.sound sound)
    (Nat.le_refl _) rooted apart declares.blank done
  have newer : ∀ id ∈ ids ++ declared, before.tree.size ≤ id.index :=
    List.forall_mem_append.mpr ⟨fun id member => (idsNew id member).1, declares.newer⟩
  have outside : statement ∉ declared := fun member =>
    Nat.lt_irrefl _ (Nat.lt_of_lt_of_le statementOld (declares.newer statement member))
  -- The joins are newer than all that was there, so nothing older changes with their conditions.
  have kept : before.Grows (fun other => other ≠ statement) after :=
    declares.grows.andThen gives.grows fun id older _ member =>
      Nat.lt_irrefl _ (Nat.lt_of_lt_of_le older (declares.newer id member))
  refine ⟨kept, ids,
    rooted.of_keeps gives.grows.keeps apart gives.joins,
    fun id member => Nat.lt_of_lt_of_le statementOld (newer id member), fun id member => ?_,
    .refl _ _, gives.grows.keeps statement _ outside (listed body found),
    List.forall_mem_singleton.mpr (gives.yields.lower ?_)⟩
  · obtain ⟨source, present, -⟩ := declares.blank.unconditional id member
    obtain ⟨later, presentLater, -⟩ := gives.joins id member source present
    exact ⟨later, presentLater⟩
  · exact Nat.lt_of_lt_of_le statementOld declares.grows.evolves.size_le

theorem fills_statement
    {dropped : Bool}
    {roots : List (RootOf Expression)}
    {selection groups : List Expression}
    {restriction having : Option Expression}
    {terms : List (OrderOf Expression)}
    {changes : List (AssignmentOf Expression)}
    {rootForms selectionForms groupForms restrictionForms havingForms termForms
      changeForms : List Form}
    (conditioned : ConditionsRoots roots rootForms)
    (selected : Fills statement (fun _ => True) (fun kind => kind ∈ Build.selecting) id
      Filling.selection (clause (Build.select statement) selection) selectionForms)
    (restricted : Fills statement (fun body => body.restriction = none) (fun _ => True)
      Option.toList Filling.restriction (optionalClause (Build.restrict statement) restriction)
      restrictionForms)
    (grouped : Fills statement (fun _ => True) (fun kind => kind ∈ Build.selecting) id
      Filling.groupList (clause (Build.groupBy statement) groups) groupForms)
    (groupsRestricted : Fills statement (fun body => body.groupRestriction = none)
      (fun kind => kind ∈ Build.selecting) Option.toList Filling.groupRestriction
      (optionalClause (Build.having statement) having) havingForms)
    (ordered : Fills statement (fun _ => True) (fun kind => kind = .query) id
      Filling.orderList (order statement terms) termForms)
    (assigned : Fills statement (fun _ => True) (fun kind => kind = .update) id
      Filling.assignments (assignments statement changes) changeForms) :
    FillsStatement statement
      (Drafting.statement statement
        ⟨dropped, roots, selection, restriction, groups, having, terms, changes⟩)
      (selectionForms ++ rootForms ++ changeForms ++ restrictionForms ++ groupForms ++
        havingForms ++ termForms) := by
  intro before after kind parent inside sound found done
  rw [Drafting.statement] at done
  obtain ⟨declared, sourced, sourcesDone, afterSources⟩ := bind_eq_ok.mp done
  obtain ⟨⟨⟩, withConditions, conditionsDone, afterConditions⟩ := bind_eq_ok.mp afterSources
  obtain ⟨full, present, -⟩ := Tree.exists_of_outline?_statement found
  have declares := of_sources roots inside ⟨full, present⟩ sourcesDone
  obtain ⟨kept, ids, rooted, newer, sources, filled⟩ :=
    filled_of_sources inside sound found declares conditioned conditionsDone
  replace inside := kept.inside inside
  replace sound := kept.sound sound
  -- The clauses follow in the order of the program, and a walk will visit them in another one.
  obtain ⟨_, isDropped, filled, afterDistinct⟩ := filled.distinct afterConditions
  obtain ⟨⟨⟩, _, stepDone, afterSelection⟩ := bind_eq_ok.mp afterDistinct
  obtain ⟨selectionIds, selects, filled⟩ := filled.clause inside sound selected trivial stepDone
  obtain ⟨⟨⟩, _, stepDone, afterRestriction⟩ := bind_eq_ok.mp afterSelection
  obtain ⟨restrictionId, -, filled⟩ := filled.clause inside sound restricted rfl stepDone
  obtain ⟨⟨⟩, _, stepDone, afterGroups⟩ := bind_eq_ok.mp afterRestriction
  obtain ⟨groupIds, groupsSelect, filled⟩ := filled.clause inside sound grouped trivial stepDone
  obtain ⟨⟨⟩, _, stepDone, afterHaving⟩ := bind_eq_ok.mp afterGroups
  obtain ⟨havingId, havingSelects, filled⟩ :=
    filled.clause inside sound groupsRestricted rfl stepDone
  obtain ⟨⟨⟩, _, stepDone, afterOrder⟩ := bind_eq_ok.mp afterHaving
  obtain ⟨termIds, isQuery, filled⟩ := filled.clause inside sound ordered trivial stepDone
  obtain ⟨changeIds, isUpdate, filled⟩ := filled.clause inside sound assigned trivial afterOrder
  refine ⟨kept.trans filled.grows, ⟨_, filled.found, rfl⟩,
    filled.yieldsStatement selects isUpdate groupsSelect havingSelects isQuery ?_⟩
  intro later orderly keeps
  -- Whatever was made for the statement is newer than it, so its sources are kept all the way.
  have onward : withConditions.tree.Keeps (fun id => statement.index < id.index) later :=
    (filled.grows.keeps.mono fun _ _ isNew same => Nat.lt_irrefl _ (same ▸ isNew)).trans
      (keeps.mono fun _ _ isNew => Nat.le_of_lt isNew)
  obtain ⟨idsNew, declaredNew⟩ := List.forall_mem_append.mp newer
  exact Tree.conditions_of_keeps rooted sources onward idsNew declaredNew orderly

/-! ## Subqueries -/

/-- A statement is filled in a scope of its own. -/
theorem of_scope
    {filled : Draft}
    {action : Drafting Unit}
    {kind : StatementKind}
    {parent : Option NodeId}
    (fills : FillsStatement statement action forms)
    (sound : before.Sound)
    (declared :
      before.tree.outline? statement = some (.statement { kind := kind, parent := parent }))
    (filling : action { before with scopes := { statement := statement } :: before.scopes } =
      .ok () filled) :
    before.Grows (fun other => other ≠ statement) { filled with scopes := filled.scopes.tail } ∧
      (∃ body, filled.tree.outline? statement = some (.statement body) ∧ body.parent = parent) ∧
      ({ filled with scopes := filled.scopes.tail } : Draft).YieldsStatement statement forms := by
  have inside :
      ({ before with scopes := { statement := statement } :: before.scopes } : Draft).Inside
        statement := rfl
  obtain ⟨grows, outermost, marks, denotes, yields⟩ := fills inside sound.enter declared filling
  refine ⟨{
    changes := grows.changes
    keeps := grows.keeps
    statements := ?_
    labels := grows.labels
    sound := fun sound => ?_ }, outermost, marks, ?_, yields⟩
  · rw [List.map_tail, grows.statements]
    rfl
  · have filled := grows.sound sound.enter
    exact { filled with
      scopes := fun scope member => filled.scopes scope (List.mem_of_mem_tail member) }
  · exact denotes.imp fun _ _ same => same.of_evolves (.of_eq fun _ => rfl) fun _ _ found => found

theorem expresses_subquery
    {body : StatementOf Expression}
    (fills : ∀ statement, FillsStatement statement (Drafting.statement statement body) forms) :
    Expresses (expression (.subquery body)) forms := by
  intro before after statement id inside sound done
  rw [expression, bind_of_ok (get_apply before), show before.scopes.head?.map Scope.statement =
    some statement from by rw [← List.head?_map]; exact inside] at done
  obtain ⟨subquery, _, built, afterMade⟩ := bind_eq_ok.mp done
  obtain ⟨tree, made, rfl⟩ := onTree_eq_ok built
  obtain ⟨⟨⟩, entered, entering, afterEntered⟩ := bind_eq_ok.mp afterMade
  obtain ⟨⟨⟩, filled, filling, afterFilled⟩ := bind_eq_ok.mp afterEntered
  cases entering
  cases afterFilled
  obtain ⟨isNext, grown, declared⟩ := Build.of_subquery made
  have makes : before.Grows (fun _ => True) { before with tree := tree } := .onTree grown
  have index : id.index = before.tree.size := by rw [isNext]
  obtain ⟨grows, ⟨body, found, within⟩, marks, denotes, yields⟩ :=
    of_scope (fills id) (makes.sound sound) declared filling
  refine ⟨makes.andThen grows fun other older _ same => ?_, ⟨marks, denotes, ?_⟩, ?_⟩
  · subst same
    omega
  · rw [← index]
    exact yields.yields found within
  · rintro ⟨node, present, isPathLike⟩
    obtain ⟨full, again, -⟩ := Tree.exists_of_outline?_statement found
    rw [show filled.tree.node? id = some node from present] at again
    cases again
    cases isPathLike

end Drafting
end Document

/-! ## Expressions and statements of a document -/

namespace Document
namespace Drafting

mutual

theorem expresses_of_expression (item : Expression) :
    Expresses (expression item) (Form.ofExpression item) := by
  match item with
  | .path text => exact expresses_path text
  | .parameter name => exact expresses_parameter name
  | .anonymous label => exact expresses_anonymous label
  | .literal value => exact expresses_literal value
  | .treat target asType => exact expresses_treat (expresses_of_expression target) asType
  | .subquery body => exact expresses_subquery fun statement => fills_of_statement statement body
  | .tuple items => exact expresses_expression (lists_of_expressions items) .tuple
  | .apply name operands => exact expresses_apply (lists_of_expressions operands) name

theorem fills_of_statement (statement : NodeId) (body : StatementOf Expression) :
    FillsStatement statement (Drafting.statement statement body) (Form.ofStatement body) := by
  match body with
  | ⟨dropped, roots, selection, restriction, groups, having, terms, changes⟩ =>
      exact fills_statement (conditions_of_roots roots)
        (fills_of_clause selection Filling.appends_selection fun _ _ _ done => Build.of_select done)
        (fills_restriction (optionally_of_option restriction))
        (fills_of_clause groups Filling.appends_groupList fun _ _ _ done => Build.of_groupBy done)
        (fills_groupRestriction (optionally_of_option having))
        (fills_of_order statement terms)
        (fills_of_assignments statement changes)

theorem lists_of_expressions (items : List Expression) :
    Lists (expressions items) (Form.ofExpressions items) := by
  match items with
  | [] => exact lists_nil
  | first :: rest => exact lists_cons (expresses_of_expression first) (lists_of_expressions rest)

theorem fills_of_clause
    {statement : NodeId}
    {allowed : StatementKind -> Prop}
    {put : List NodeId -> Filling.Change}
    {add : NodeId -> Build Unit}
    (items : List Expression)
    (appends : Filling.Appends put)
    (adds : ∀ ⦃before after : Tree⦄ ⦃id : NodeId⦄, add id before = .ok () after ->
      (∃ body, before.node? statement = some (.statement body) ∧ allowed body.kind) ∧
        before.Amends statement (put [id]) after) :
    Fills statement (fun _ => True) allowed id put (clause add items)
      (Form.ofExpressions items) := by
  match items with
  | [] => exact fills_nil appends
  | first :: rest =>
      have step := puts_add adds (expresses_of_expression first)
      have filled := fills_cons appends step (fills_of_clause rest appends adds)
      rwa [bind_assoc] at filled

theorem optionally_of_option (item : Option Expression) :
    Optionally item (Form.ofOption item) := by
  match item with
  | none => exact optionally_none
  | some item => exact optionally_some (expresses_of_expression item)

theorem fills_of_order (statement : NodeId) (terms : List (OrderOf Expression)) :
    Fills statement (fun _ => True) (fun kind => kind = .query) id Filling.orderList
      (order statement terms) (Form.ofOrders terms) := by
  match terms with
  | [] => exact fills_nil Filling.appends_orderList
  | ⟨item, ascending⟩ :: rest =>
      have step : Puts statement (fun kind => kind = .query) Filling.orderList _ _ :=
        puts_order (expresses_of_expression item) ascending
      have filled := fills_cons Filling.appends_orderList step (fills_of_order statement rest)
      rwa [bind_assoc] at filled

theorem fills_of_assignments (statement : NodeId) (changes : List (AssignmentOf Expression)) :
    Fills statement (fun _ => True) (fun kind => kind = .update) id Filling.assignments
      (assignments statement changes) (Form.ofAssignments changes) := by
  match changes with
  | [] => exact fills_nil Filling.appends_assignments
  | ⟨target, value⟩ :: rest =>
      have step : Puts statement (fun kind => kind = .update) Filling.assignments _ _ :=
        puts_assign (expresses_of_expression value) target
      have filled :=
        fills_cons Filling.appends_assignments step (fills_of_assignments statement rest)
      simp only [bind_assoc] at filled
      exact filled

theorem conditions_of_joins (list : List (JoinOf Expression)) :
    ConditionsJoins list (Form.ofJoins list) := by
  match list with
  | [] => exact conditionsJoins_nil
  | ⟨field, aliasHint, name, direction, mode, on, nested, fetched⟩ :: rest =>
      exact conditionsJoins_cons (optionally_of_option on) (conditions_of_joins nested)
        (conditions_of_joins rest)

theorem conditions_of_roots (list : List (RootOf Expression)) :
    ConditionsRoots list (Form.ofRoots list) := by
  match list with
  | [] => exact conditionsRoots_nil
  | ⟨recordType, aliasHint, name, nested, fetched⟩ :: rest =>
      exact conditionsRoots_cons (conditions_of_joins nested) (conditions_of_roots rest)

end

end Drafting

/-! ## Whole documents -/

/-- A draft of nothing but a top statement. -/
theorem sound_ofKind (kind : StatementKind) : ({ tree := Tree.ofKind kind } : Draft).Sound where
  made := ⟨kind, Tree.Changes.refl _⟩
  scopes := List.forall_mem_nil _
  named id name found := by
    cases Tree.node?_ofKind found
  parameters _ _ found := nomatch found
  labels _ _ found := nomatch found
  distinct _ _ _ found := nomatch found

/-- The tree of a document was drafted, and its top statement yields the forms of the document. -/
theorem exists_forms_of_build
    {document : QueryDocument}
    {tree : Tree}
    (built : document.build = .ok tree) :
    ∃ draft : Draft, draft.tree = tree ∧ draft.Sound ∧
      (Tree.ofKind document.topKind).Changes tree ∧
      draft.YieldsStatement Tree.top document.statement.forms := by
  unfold QueryDocument.build at built
  dsimp only at built
  split at built
  · rename_i last done
    cases built
    obtain ⟨⟨⟩, entered, entering, afterEntered⟩ := bind_eq_ok.mp done
    obtain ⟨⟨⟩, filled, filling, leaving⟩ := bind_eq_ok.mp afterEntered
    cases entering
    cases leaving
    have sound := sound_ofKind document.topKind
    obtain ⟨grows, -, yields⟩ := Drafting.of_scope
      (Drafting.fills_of_statement Tree.top document.statement) sound rfl filling
    exact ⟨_, rfl, grows.sound sound, grows.changes, yields⟩
  · cases built

/-- The tree of a document was drafted, and its top statement yields the leaves of the document. -/
theorem exists_draft_of_build
    {document : QueryDocument}
    {tree : Tree}
    (built : document.build = .ok tree) :
    ∃ draft : Draft, draft.tree = tree ∧ draft.Sound ∧
      (Tree.ofKind document.topKind).Changes tree ∧
      ∃ marks, List.Forall₂ draft.Means (Leaf.ofStatement document.statement) marks ∧
        tree.YieldsStatement Tree.top marks := by
  obtain ⟨draft, same, sound, changes, marks, denotes, yields⟩ := exists_forms_of_build built
  refine ⟨draft, same, sound, changes, marks, ?_, same ▸ yields⟩
  rw [← Form.leaves_ofStatement]
  exact List.forall₂_map_left_iff.mpr (denotes.imp fun _ _ each => each.means)

end Document
end QueryGraph
