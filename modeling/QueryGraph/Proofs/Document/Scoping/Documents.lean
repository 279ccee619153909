import Mathlib
import QueryGraph.Proofs.Document.Scoping.Statements

/-!
# Documents are scoped

By induction on a document, its statement is scoped in the tree that is built from it. A document
that is scoped in a tree has no unknown name, and a document is refused for an unknown name only if
nothing around that name declares it.
-/

namespace QueryGraph

open Operation

namespace Document

variable {tree : Tree} {place : Place} {id : NodeId} {ids : List NodeId}

namespace Drafting

/-! ## Induction on a document -/

theorem scopedOrders_cons
    {term : Document.Order}
    {terms : List Document.Order}
    (first : ∃ inner, tree.node? id = some (.order inner term.ascending) ∧
      tree.ScopedExpression place term.expression inner)
    (rest : tree.ScopedOrders place terms ids) :
    tree.ScopedOrders place (term :: terms) (id :: ids) := by
  obtain ⟨inner, found, inside⟩ := first
  exact .cons found inside rest

theorem scopedAssignments_cons
    {change : Document.Assignment}
    {changes : List Document.Assignment}
    (first : ∃ target value, tree.node? id = some (.assignment target value) ∧
      tree.ScopedPath place change.target target ∧
      tree.ScopedExpression place change.value value)
    (rest : tree.ScopedAssignments place changes ids) :
    tree.ScopedAssignments place (change :: changes) (id :: ids) := by
  obtain ⟨target, value, found, assigned, inside⟩ := first
  exact .cons found assigned inside rest

mutual

theorem scopes_of_expression (item : Expression) : Scopes item := by
  match item with
  | .path text => exact scopes_path text
  | .parameter name => exact scopes_parameter name
  | .anonymous label => exact scopes_anonymous label
  | .literal value => exact scopes_literal value
  | .treat target asType => exact scopes_treat (scopes_of_expression target) asType
  | .subquery body => exact scopes_subquery fun statement => scopes_of_statement statement body
  | .tuple items => exact scopes_tuple (scopes_of_expressions items)
  | .apply name operands => exact scopes_apply (scopes_of_expressions operands) name

theorem scopes_of_statement (statement : NodeId) (body : StatementOf Expression) :
    ScopesStatement statement body := by
  match body with
  | ⟨dropped, roots, selection, restriction, groups, having, terms, changes⟩ =>
      exact scopes_statement (conditionsScoped_of_roots roots)
        (fillsScoped_of_clause selection Filling.appends_selection
          (fun _ _ _ done => (Build.of_select done).2) fun _ => Build.uncorrelating_select)
        (scopes_of_option restriction)
        (fillsScoped_of_clause groups Filling.appends_groupList
          (fun _ _ _ done => (Build.of_groupBy done).2) fun _ => Build.uncorrelating_groupBy)
        (scopes_of_option having)
        (fillsScoped_of_order statement terms)
        (fillsScoped_of_assignments statement changes)

theorem scopes_of_expressions (items : List Expression) : ScopesAll items := by
  match items with
  | [] => exact scopesAll_nil
  | first :: rest => exact scopesAll_cons (scopes_of_expression first) (scopes_of_expressions rest)

theorem fillsScoped_of_clause
    {statement : NodeId}
    {put : List NodeId -> Filling.Change}
    {add : NodeId -> Build Unit}
    (items : List Expression)
    (appends : Filling.Appends put)
    (adds : ∀ ⦃before after : Tree⦄ ⦃id : NodeId⦄, add id before = .ok () after ->
      before.Amends statement (put [id]) after)
    (uncorrelating : ∀ id, Build.Uncorrelating (add id)) :
    FillsScoped statement (fun _ => True) put (clause add items)
      (fun known => unknownOfExpressions known items) fun place tree ids =>
        tree.ScopedExpressions place items ids := by
  match items with
  | [] => exact fillsScoped_nil appends fun _ _ => .nil
  | first :: rest =>
      have step := putsScoped_add (scopes_of_expression first) adds uncorrelating
      have filled : FillsScoped statement (fun _ => True) put _ _ fun place tree ids =>
          tree.ScopedExpressions place (first :: rest) ids :=
        fillsScoped_cons appends step (fillsScoped_of_clause rest appends adds uncorrelating)
          fun _ _ _ _ item items => .cons item items
      rwa [bind_assoc] at filled

theorem scopes_of_option (item : Option Expression) : ScopesOption item := by
  match item with
  | none => exact fun found member => absurd member (Option.not_mem_none found)
  | some item =>
      intro found member
      exact Option.mem_some.mp member ▸ scopes_of_expression item

theorem fillsScoped_of_order (statement : NodeId) (terms : List (OrderOf Expression)) :
    FillsScoped statement (fun _ => True) Filling.orderList (order statement terms)
      (fun known => unknownOfOrders known terms) fun place tree ids =>
        tree.ScopedOrders place terms ids := by
  match terms with
  | [] => exact fillsScoped_nil Filling.appends_orderList fun _ _ => .nil
  | ⟨item, ascending⟩ :: rest =>
      have step := @putsScoped_order statement ⟨item, ascending⟩ (scopes_of_expression item)
      have filled := fillsScoped_cons Filling.appends_orderList step
        (fillsScoped_of_order statement rest) fun _ _ _ _ => scopedOrders_cons
      rwa [bind_assoc] at filled

theorem fillsScoped_of_assignments
    (statement : NodeId)
    (changes : List (AssignmentOf Expression)) :
    FillsScoped statement (fun _ => True) Filling.assignments (assignments statement changes)
      (fun known => unknownOfAssignments known changes) fun place tree ids =>
        tree.ScopedAssignments place changes ids := by
  match changes with
  | [] => exact fillsScoped_nil Filling.appends_assignments fun _ _ => .nil
  | ⟨target, value⟩ :: rest =>
      have step := @putsScoped_assign statement ⟨target, value⟩ (scopes_of_expression value)
      have filled := fillsScoped_cons Filling.appends_assignments step
        (fillsScoped_of_assignments statement rest) fun _ _ _ _ => scopedAssignments_cons
      simp only [bind_assoc] at filled
      exact filled

theorem conditionsScoped_of_joins (list : List (JoinOf Expression)) : ConditionsScoped list := by
  match list with
  | [] => exact conditionsScoped_nil
  | ⟨field, aliasHint, name, direction, mode, on, nested, fetched⟩ :: rest =>
      exact conditionsScoped_cons (scopes_of_option on) (conditionsScoped_of_joins nested)
        (conditionsScoped_of_joins rest)

theorem conditionsScoped_of_roots (list : List (RootOf Expression)) :
    ConditionsRootsScoped list := by
  match list with
  | [] => exact conditionsRootsScoped_nil
  | ⟨recordType, aliasHint, name, nested, fetched⟩ :: rest =>
      exact conditionsRootsScoped_cons (conditionsScoped_of_joins nested)
        (conditionsScoped_of_roots rest)

end

end Drafting

/-! ## Scoped documents have no unknown names -/

theorem unknownHead_eq_nil
    {text : String}
    (reads : tree.ScopedPath place text id) :
    unknownHead place.known text = [] := by
  obtain ⟨head, fields, source, parts, -, -, declared, means, -⟩ := reads.exists_source
  have known : head ∈ place.known := mem_names_of_meaning? means
  unfold unknownHead
  rw [parts]
  simp [known]

mutual

theorem unknownOfExpression_eq_nil
    {place : Place}
    {id : NodeId}
    (item : Expression)
    (inside : tree.ScopedExpression place item id) :
    unknownOfExpression place.known item = [] := by
  match item with
  | .path text =>
      cases inside with
      | path reads => exact unknownHead_eq_nil reads
  | .parameter name => rfl
  | .anonymous label => rfl
  | .literal value => rfl
  | .treat target asType =>
      cases inside with
      | treat _ inside => exact unknownOfExpression_eq_nil target inside
  | .subquery body =>
      cases inside with
      | subquery _ _ inside => exact unknownOfStatement_eq_nil body inside
  | .tuple items =>
      cases inside with
      | tuple _ inside => exact unknownOfExpressions_eq_nil items inside
  | .apply name items =>
      cases inside with
      | apply _ _ inside => exact unknownOfExpressions_eq_nil items inside

theorem unknownOfStatement_eq_nil
    {tables : List Table}
    {id : NodeId}
    (body : StatementOf Expression)
    (inside : tree.ScopedStatement tables body id) :
    unknownOfStatement (tables.flatMap Table.names) body = [] := by
  match body with
  | ⟨dropped, roots, selection, restriction, groups, having, terms, changes⟩ =>
      cases inside with
      | @mk _ _ _ full joins own correlated _ sources declares _ _ _ conditions selects restricts
          groupsBy havings orders assigns =>
          have known : declaredNames roots ++ tables.flatMap Table.names =
              (⟨id, own :: tables⟩ : Place).known := by
            rw [declares, Place.known, List.flatMap_cons, sources.names_declaredTable]
          rw [unknownOfStatement, known]
          simp only [unknownOfRoots_eq_nil roots conditions,
            unknownOfExpressions_eq_nil selection selects,
            unknownOfOption_eq_nil restriction restricts,
            unknownOfExpressions_eq_nil groups groupsBy, unknownOfOption_eq_nil having havings,
            unknownOfOrders_eq_nil terms orders, unknownOfAssignments_eq_nil changes assigns,
            List.append_nil]

theorem unknownOfExpressions_eq_nil
    {place : Place}
    {ids : List NodeId}
    (items : List Expression)
    (inside : tree.ScopedExpressions place items ids) :
    unknownOfExpressions place.known items = [] := by
  match items with
  | [] => rfl
  | item :: rest =>
      cases inside with
      | cons first others =>
          rw [unknownOfExpressions, unknownOfExpression_eq_nil item first,
            unknownOfExpressions_eq_nil rest others, List.append_nil]

theorem unknownOfOption_eq_nil
    {place : Place}
    {id : Option NodeId}
    (item : Option Expression)
    (inside : tree.ScopedOption place item id) :
    unknownOfOption place.known item = [] := by
  match item with
  | none => rfl
  | some item =>
      cases inside with
      | some inside => exact unknownOfExpression_eq_nil item inside

theorem unknownOfOrders_eq_nil
    {place : Place}
    {ids : List NodeId}
    (terms : List (OrderOf Expression))
    (inside : tree.ScopedOrders place terms ids) :
    unknownOfOrders place.known terms = [] := by
  match terms with
  | [] => rfl
  | ⟨item, ascending⟩ :: rest =>
      cases inside with
      | cons _ first others =>
          rw [unknownOfOrders, unknownOfExpression_eq_nil item first,
            unknownOfOrders_eq_nil rest others, List.append_nil]

theorem unknownOfAssignments_eq_nil
    {place : Place}
    {ids : List NodeId}
    (changes : List (AssignmentOf Expression))
    (inside : tree.ScopedAssignments place changes ids) :
    unknownOfAssignments place.known changes = [] := by
  match changes with
  | [] => rfl
  | ⟨target, value⟩ :: rest =>
      cases inside with
      | cons _ assigned first others =>
          rw [unknownOfAssignments, unknownHead_eq_nil assigned,
            unknownOfExpression_eq_nil value first, unknownOfAssignments_eq_nil rest others,
            List.append_nil, List.append_nil]

theorem unknownOfJoins_eq_nil
    {place : Place}
    {ids : List NodeId}
    (list : List (JoinOf Expression))
    (inside : tree.ScopedJoins place list ids) :
    unknownOfJoins place.known list = [] := by
  match list with
  | [] => rfl
  | ⟨field, aliasHint, name, direction, mode, on, nested, fetched⟩ :: rest =>
      cases inside with
      | cons condition below others =>
          rw [unknownOfJoins, unknownOfOption_eq_nil on condition,
            unknownOfJoins_eq_nil nested below, unknownOfJoins_eq_nil rest others,
            List.append_nil, List.append_nil]

theorem unknownOfRoots_eq_nil
    {place : Place}
    {ids : List NodeId}
    (list : List (RootOf Expression))
    (inside : tree.ScopedRoots place list ids) :
    unknownOfRoots place.known list = [] := by
  match list with
  | [] => rfl
  | ⟨recordType, aliasHint, name, nested, fetched⟩ :: rest =>
      cases inside with
      | cons below others =>
          rw [unknownOfRoots, unknownOfJoins_eq_nil nested below,
            unknownOfRoots_eq_nil rest others, List.append_nil]

end

/-! ## Whole documents -/

theorem opens_top (kind : StatementKind) :
    ({ tree := Tree.ofKind kind, scopes := [{ statement := Tree.top }] } : Draft).Opens []
      Tree.top where
  sound := (sound_ofKind kind).enter
  scopes := ⟨[], rfl, List.forall_mem_nil _, .nil⟩
  found := ⟨kind, none, rfl⟩
  correlated := ((Tree.rostered_ofKind kind).correlations_eq
    (show (Tree.ofKind kind).node? Tree.top = some (.statement { kind := kind }) from rfl)).symm

end Document

namespace QueryDocument

open Document

/-- In a document that is built, the head of each path stands for what the innermost statement
around it declares under that name, whatever was looked up before, and a statement correlates one
source at most for a name, and none for a name of its own. A document with a name that nothing
around it declares is not built, and only such a name is reported as unknown. -/
theorem build_scoping (document : QueryDocument) :
    (∀ tree, document.build = .ok tree ->
      tree.ScopedStatement [] document.statement Tree.top ∧
        unknownOfStatement [] document.statement = []) ∧
      ∀ name, document.build = .error (.unknownAlias name) ->
        name ∈ unknownOfStatement [] document.statement := by
  have fills := Drafting.scopes_of_statement Tree.top document.statement
    (opens_top document.topKind)
  have ends : Ends (fun _ after => after.tree.ScopedStatement [] document.statement Tree.top)
      (Blames (unknownOfStatement [] document.statement))
      ((do
        Drafting.enter Tree.top
        Drafting.statement Tree.top document.statement
        Drafting.leave : Drafting Unit) { tree := Tree.ofKind document.topKind }) := by
    refine Ends.bind_ok rfl (fills.seq ?_)
    rintro - filled ⟨own, made⟩
    have rostered := (made.grows.sound (sound_ofKind document.topKind).enter).rostered
    exact made.holds _ (.refl rostered) (.refl rostered)
  unfold QueryDocument.build
  dsimp only
  refine ⟨fun tree built => ?_, fun name refused => ?_⟩
  · split at built
    · rename_i last done
      cases built
      have inside := ends.of_ok done
      exact ⟨inside, unknownOfStatement_eq_nil document.statement inside⟩
    · cases built
  · split at refused
    · cases refused
    · rename_i error last failed
      cases refused
      exact ends.of_error failed name rfl

/-- The sailors of a crew. A subquery calls a sailor by the name that a join has outside it, and a
subquery below it looks up the crew before it does. -/
def crewRivals : QueryDocument where
  statement := {
    sources := [{
      recordType := "Crew"
      name := some "c"
      joins := [{ field := "members", aliasHint := some "s" }] }]
    selection := [.path "s"]
    restriction := some (.subquery {
      sources := [{ recordType := "Sailor", name := some "s" }]
      selection := [.path "s.id", .subquery {
        sources := [{ recordType := "Sailor" }]
        restriction := some (.apply "=" [.path "c", .path "s"]) }]
      restriction := some (.apply "=" [.path "s", .path "c"]) }) }

/-- The sailors of a crew under a name that only a subquery declares. -/
def crewStrays : QueryDocument where
  statement := {
    sources := [{ recordType := "Crew", name := some "c" }]
    restriction := some (.tuple [
      .subquery {
        sources := [{ recordType := "Sailor", name := some "s" }]
        selection := [.path "s", .path "c"] },
      .path "s"]) }

/-- The one document is built with its names scoped, and the other one is refused for its name. -/
theorem build_scoping_crews :
    (∃ tree, crewRivals.build = .ok tree ∧
      tree.ScopedStatement [] crewRivals.statement Tree.top ∧
      unknownOfStatement [] crewRivals.statement = []) ∧
    crewStrays.build = .error (.unknownAlias "s") ∧
      "s" ∈ unknownOfStatement [] crewStrays.statement := by
  have succeeds : crewRivals.build.toOption.isSome = true := by cbv
  have refused : crewStrays.build = .error (.unknownAlias "s") := by cbv
  refine ⟨?_, refused, (build_scoping crewStrays).2 "s" refused⟩
  cases built : crewRivals.build with
  | error fault =>
      rw [built] at succeeds
      cases succeeds
  | ok tree =>
      obtain ⟨inside, known⟩ := (build_scoping crewRivals).1 tree built
      exact ⟨tree, rfl, inside, known⟩

end QueryDocument
end QueryGraph
