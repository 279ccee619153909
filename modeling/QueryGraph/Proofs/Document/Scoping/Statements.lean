import QueryGraph.Proofs.Document.Scoping.Sources

/-!
# What a statement means

A statement is scoped once its sources, their conditions and its clauses are. A subquery is filled
in a scope of its own, and what is looked up there changes no scope around it.
-/

namespace QueryGraph

open Operation

namespace Tree.Knows

open Document

variable {tree : Tree} {scope : Scope} {scopes : List Scope} {own : Table} {tables : List Table}

theorem older
    (knows : tree.Knows scopes tables) :
    ∀ scope ∈ scopes, scope.statement.index < tree.size := by
  induction knows with
  | nil => exact List.forall_mem_nil _
  | cons knows _ _ inductionHypothesis =>
      exact List.forall_mem_cons.mpr ⟨knows.made, inductionHypothesis⟩

/-- The scopes around a scope. -/
theorem tail
    (knows : tree.Knows scopes (own :: tables)) :
    tree.Knows scopes.tail tables := by
  cases knows with
  | cons _ _ outer => exact outer

end Tree.Knows

namespace Document

variable {before between after : Draft} {place : Place} {statement : NodeId} {tables : List Table}
  {roots : List (RootOf Expression)} {ids declared : List NodeId} {body : QueryGraph.Statement}
  {holds : Tree -> Prop} {names : List String} {goal : Unit -> Draft -> Prop}

/-! ## Sources with conditions -/

/-- A statement whose sources were declared and have got their conditions. -/
structure Draft.Conditioned
    (before : Draft)
    (place : Place)
    (roots : List (RootOf Expression))
    (ids declared : List NodeId)
    (after : Draft) : Prop where
  here : after.At place
  grows : before.Grows (fun other => other ≠ place.statement) after
  correlated : before.tree.KeepsCorrelated (fun other => other ≠ place.statement) after.tree
  rooted : after.tree.Rooted roots ids declared
  newer : ∀ id ∈ ids ++ declared, place.statement.index < id.index
  found : ∃ kind parent, after.tree.outline? place.statement =
    some (.statement { kind := kind, parent := parent, roots := ids })
  holds : ∀ later, after.tree.Retains (place.statement.index + 1) later ->
    later.ScopedRoots place roots declared

theorem Draft.Sourced.conditions
    (sourced : before.Sourced place roots ids declared between)
    (conditioned : Drafting.ConditionsRootsScoped roots) :
    Ends (fun _ after => before.Conditioned place roots ids declared after)
      (Blames (unknownOfRoots place.known roots)) (Drafting.conditions roots declared between) := by
  obtain ⟨here, declares, rooted, apart, newer, ⟨kind, parent, found⟩, uncorrelated⟩ := sourced
  have blank := declares.blank
  refine (conditioned here (Nat.le_refl _) rooted apart blank).attach.imp ?_ fun _ same => same
  rintro ⟨⟩ after ⟨given, done⟩
  have joins := (Drafting.conditions_of_roots roots here.inside here.sound (Nat.le_refl _) rooted
    apart blank done).joins
  have outside : place.statement ∉ declared := fun member =>
    Nat.lt_irrefl _ (newer _ (List.mem_append_right _ member))
  refine {
    here := given.here here
    grows := declares.grows.andThen given.grows fun id older _ member =>
      Nat.lt_irrefl _ (Nat.lt_of_lt_of_le older (declares.newer id member))
    correlated := Tree.KeepsCorrelated.andThen (.of_eq uncorrelated) given.correlated
      declares.grows.evolves.size_le fun _ _ differs => differs
    rooted := rooted.of_keeps given.grows.keeps apart joins
    newer := newer
    found := ⟨kind, parent, given.grows.keeps _ _ outside found⟩
    holds := fun later retains => given.holds later (retains.mono here.older) fun id member => ?_ }
  obtain ⟨source, present, -⟩ := blank.unconditional id member
  exact Drafting.condition?_of_keeps present given.grows.evolves retains.keeps
    (newer id (List.mem_append_right _ member))

/-! ## Clause by clause -/

namespace Draft.FilledAt

/-- One more clause is filled, and the rest follows. -/
theorem clause
    {ready : QueryGraph.Statement -> Prop}
    {put : ι -> Filling.Change}
    {action rest : Drafting Unit}
    {unknown : List String -> List String}
    {more : Place -> Tree -> ι -> Prop}
    (earlier : before.FilledAt place body between holds)
    (here : before.At place)
    (fills : Drafting.FillsScoped place.statement ready put action unknown more)
    (isReady : ready body)
    (next : ∀ items after,
      before.FilledAt place (put items body) after
          (fun later => holds later ∧ more place later items) ->
        Ends goal (Blames names) (rest after)) :
    Ends goal (Blames (unknown place.known ++ names)) ((action >>= fun _ => rest) between) := by
  refine Drafting.ends_seq (fills (earlier.makes.here here) rfl earlier.found isReady) ?_
  rintro - after ⟨items, filled⟩
  exact next items after (earlier.onward here filled)

/-- Duplicates are dropped or kept, and the rest follows. -/
theorem dropping
    {drops : Bool}
    {rest : PUnit -> Drafting Unit}
    (earlier : before.FilledAt place body between holds)
    (here : before.At place)
    (next : ∀ dropped after, before.FilledAt place { body with distinct := dropped } after holds ->
      Ends goal (Blames names) (rest () after)) :
    Ends goal (Blames names)
      ((if drops then Drafting.onTree (Build.distinct place.statement true) >>= rest
        else rest ()) between) := by
  cases drops with
  | false => exact next body.distinct between earlier
  | true =>
      refine Ends.bind (Drafting.ends_onTree fun _ tree built => ?_)
      have amends := Build.of_distinct built
      have quiet : between.Quiet { between with tree := tree } :=
        ⟨rfl, Build.uncorrelating_distinct true built⟩
      have makes : between.Makes place _ _ fun _ => True :=
        .of_quiet (earlier.makes.here here) (.onTree amends.grows) quiet fun _ _ => trivial
      have filled := earlier.onward here ⟨makes, amends.amended _ earlier.found⟩
      exact next true _ (filled.mono fun _ both => both.1)

end Draft.FilledAt

/-- The clauses of a statement that was filled are scoped in a tree. -/
structure ScopedClauses
    (tree : Tree)
    (place : Place)
    (written : Document.Statement)
    (body : QueryGraph.Statement) : Prop where
  selection : tree.ScopedExpressions place written.selection body.selection
  restriction : tree.ScopedOption place written.restriction body.restriction
  groups : tree.ScopedExpressions place written.groupBy body.groupList
  having : tree.ScopedOption place written.having body.groupRestriction
  orders : tree.ScopedOrders place written.orderBy body.orderList
  assignments : tree.ScopedAssignments place written.assignments body.assignments

/-- A statement that was filled is scoped in every later tree that retains it. -/
theorem Draft.Conditioned.scopedStatement
    {written : Document.Statement}
    (conditioned : before.Conditioned
      ⟨statement, declaredTable written.sources ids declared :: tables⟩ written.sources ids declared
      between)
    (filled : between.FilledAt
      ⟨statement, declaredTable written.sources ids declared :: tables⟩ body after holds)
    (sameRoots : body.roots = ids)
    (clauses : ∀ later, holds later -> ScopedClauses later
      ⟨statement, declaredTable written.sources ids declared :: tables⟩ written body) :
    before.Makes ⟨statement, declaredTable written.sources ids declared :: tables⟩
      (fun other => other ≠ statement) after fun later =>
        after.tree.Retains statement.index later -> later.ScopedStatement tables written statement
    where
  grows := conditioned.grows.trans filled.makes.grows
  knows := filled.makes.knows
  correlated := conditioned.correlated.andThen filled.makes.correlated
    conditioned.grows.evolves.size_le fun _ _ differs => differs
  holds := by
    intro later _ retains
    have older : statement.index < between.tree.size := conditioned.here.older
    have scopedClauses :=
      clauses later (filled.makes.holds later (retains.mono (Nat.le_of_lt older)))
    have differs (id : NodeId) (newer : statement.index + 1 ≤ id.index) : id ≠ statement := by
      rintro rfl
      omega
    have onward : between.tree.Retains (statement.index + 1) later :=
      (retains.mono (Nat.le_succ _)).earlier filled.makes.grows.evolves filled.makes.grows.keeps
        filled.makes.correlated fun id newer => ⟨differs id newer, differs id newer⟩
    obtain ⟨idsNewer, declaredNewer⟩ := List.forall_mem_append.mp conditioned.newer
    have rooted := conditioned.rooted.of_keeps onward.keeps idsNewer
      (.of_keeps onward.keeps declaredNewer)
    obtain ⟨full, present, rfl⟩ :=
      Tree.exists_of_outline?_statement (retains.keeps statement _ (Nat.le_refl _) filled.found)
    obtain rfl : full.roots = ids := sameRoots
    obtain ⟨scope, _, _, correlated, _, -, samePlace, knows, -⟩ :=
      (filled.makes.here conditioned.here).exists_scope
    cases samePlace
    have correlates : correlated.map Prod.snd = full.correlations := by
      rw [retains.rostered.correlations_eq present, retains.correlated _ knows.made (Nat.le_refl _)]
      exact knows.correlates
    exact .mk present rooted rfl correlates knows.distinct
      (fun entry member => (knows.means entry member).of_evolves retains.evolves)
      (conditioned.holds later onward) scopedClauses.selection scopedClauses.restriction
      scopedClauses.groups scopedClauses.having scopedClauses.orders scopedClauses.assignments

namespace Drafting

/-! ## Statements -/

/-- What filling a statement comes to that was opened with nothing in it. It is scoped in every
later tree that retains the statement as well. -/
def ScopesStatement
    (statement : NodeId)
    (written : Document.Statement) : Prop :=
  ∀ ⦃before : Draft⦄ ⦃tables : List Table⦄, before.Opens tables statement ->
    Ends (fun _ after => ∃ own,
        before.Makes ⟨statement, own :: tables⟩ (fun other => other ≠ statement) after fun later =>
          after.tree.Retains statement.index later ->
            later.ScopedStatement tables written statement)
      (Blames (unknownOfStatement (tables.flatMap Table.names) written))
      (Drafting.statement statement written before)

theorem scopes_statement
    {dropped : Bool}
    {selection groups : List Expression}
    {restriction having : Option Expression}
    {terms : List Document.Order}
    {changes : List Document.Assignment}
    (conditioned : ConditionsRootsScoped roots)
    (selected : FillsScoped statement (fun _ => True) Filling.selection
      (clause (Build.select statement) selection)
      (fun known => unknownOfExpressions known selection)
      fun place tree items => tree.ScopedExpressions place selection items)
    (restricted : ScopesOption restriction)
    (grouped : FillsScoped statement (fun _ => True) Filling.groupList
      (clause (Build.groupBy statement) groups) (fun known => unknownOfExpressions known groups)
      fun place tree items => tree.ScopedExpressions place groups items)
    (groupsRestricted : ScopesOption having)
    (ordered : FillsScoped statement (fun _ => True) Filling.orderList (order statement terms)
      (fun known => unknownOfOrders known terms)
      fun place tree items => tree.ScopedOrders place terms items)
    (assigned : FillsScoped statement (fun _ => True) Filling.assignments
      (assignments statement changes) (fun known => unknownOfAssignments known changes)
      fun place tree items => tree.ScopedAssignments place changes items) :
    ScopesStatement statement
      ⟨dropped, roots, selection, restriction, groups, having, terms, changes⟩ := by
  intro before tables opens
  rw [Drafting.statement, unknownOfStatement]
  refine Ends.bind ((blameless_sources statement roots).attach.imp ?_ fun _ blames =>
    blames.subset (List.nil_subset _))
  rintro declared between ⟨-, sourcesDone⟩
  obtain ⟨ids, sourced⟩ := opens.sources sourcesDone
  generalize samePlace : (⟨statement, declaredTable roots ids declared :: tables⟩ : Place) = place
    at sourced
  have known : declaredNames roots ++ tables.flatMap Table.names = place.known := by
    rw [← samePlace, Place.known, List.flatMap_cons, sourced.rooted.names_declaredTable]
  rw [known]
  simp only [List.append_assoc]
  refine ends_seq (sourced.conditions conditioned) ?_
  rintro - withConditions conditioned
  have here := conditioned.here
  obtain ⟨kind, parent, found⟩ := conditioned.found
  subst samePlace
  -- From here on the clauses follow in the order of the program.
  refine (here.unchanged found fun _ => trivial).dropping here fun dropped _ filled => ?_
  refine filled.clause here selected trivial fun selectionIds _ filled => ?_
  refine filled.clause here (fillsScoped_restriction restricted) rfl
    fun restrictionId _ filled => ?_
  refine filled.clause here grouped trivial fun groupIds _ filled => ?_
  refine filled.clause here (fillsScoped_groupRestriction groupsRestricted) rfl
    fun havingId _ filled => ?_
  refine filled.clause here ordered trivial fun termIds _ filled => ?_
  refine (assigned (filled.makes.here here) rfl filled.found trivial).imp ?_ fun _ same => same
  rintro - after ⟨changeIds, last⟩
  refine ⟨_, conditioned.scopedStatement (filled.onward here last) rfl fun later all => ?_⟩
  obtain ⟨⟨⟨⟨⟨⟨-, selects⟩, restricts⟩, groups⟩, havings⟩, orders⟩, assigns⟩ := all
  exact ⟨selects, restricts, groups, havings, orders, assigns⟩

/-! ## Subqueries -/

/-- A subquery that was made is opened inside the statements around it. -/
theorem opens_subquery
    {tree : Tree}
    {id : NodeId}
    (here : before.At place)
    (made : Build.subquery place.statement before.tree = .ok id tree) :
    ({ before with tree := tree, scopes := { statement := id } :: before.scopes } : Draft).Opens
      place.tables id := by
  obtain ⟨rfl, grown, declared⟩ := Build.of_subquery made
  have uncorrelated := Build.uncorrelating_subquery made
  have makes : before.Grows (fun _ => True) { before with tree := tree } := .onTree grown
  refine ⟨(makes.sound here.sound).enter, ⟨before.scopes, rfl, here.knows.older, ?_⟩,
    ⟨_, _, declared⟩, ?_⟩
  · exact here.knows.of_evolves makes.evolves fun scope _ => congrFun uncorrelated scope.statement
  · exact (congrFun uncorrelated _).trans (here.sound.rostered.members_next .correlations)

theorem scopes_subquery
    {written : Document.Statement}
    (fills : ∀ statement, ScopesStatement statement written) :
    Scopes (.subquery written) := by
  intro before place here
  have innermost : before.scopes.head?.map Scope.statement = some place.statement := by
    rw [← List.head?_map]
    exact here.inside
  rw [expression, bind_of_ok (get_apply before), innermost]
  refine Ends.bind (ends_onTree fun id tree made => ?_)
  change Ends _ _ ((Drafting.statement id written >>= fun _ => leave >>= fun _ => pure id)
    { before with tree := tree, scopes := { statement := id } :: before.scopes })
  refine (Ends.attach (fills id (opens_subquery here made))).seq ?_
  rintro ⟨⟩ filled ⟨⟨own, makes⟩, filling⟩
  have uncorrelated := Build.uncorrelating_subquery made
  obtain ⟨isNext, grown, declared⟩ := Build.of_subquery made
  have index : id.index = before.tree.size := by rw [isNext]
  have added : before.Grows (fun _ => True) { before with tree := tree } := .onTree grown
  obtain ⟨grows, ⟨body, found, within⟩, -⟩ :=
    of_scope (fills_of_statement id written) (added.sound here.sound) declared filling
  have differs (other : NodeId) (older : other.index < before.tree.size) : other ≠ id := by
    rintro rfl
    omega
  change before.Makes place (fun _ => True) { filled with scopes := filled.scopes.tail } _
  refine {
    grows := added.andThen grows fun other older _ => differs other older
    knows := makes.knows.tail
    correlated := Tree.KeepsCorrelated.andThen (.of_eq uncorrelated) makes.correlated
      added.evolves.size_le fun other older _ => differs other older
    holds := fun later retains => ?_ }
  obtain ⟨full, present, rfl⟩ := Tree.exists_of_outline?_statement
    (retains.keeps id _ (Nat.le_of_eq index.symm) found)
  refine .subquery present within (makes.holds later ?_ ?_)
  · exact retains.mono added.evolves.size_le
  · rwa [index]

end Drafting
end Document
end QueryGraph
