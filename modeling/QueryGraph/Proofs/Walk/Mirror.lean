import QueryGraph.Proofs.Tree.Agreement
import QueryGraph.Proofs.Walk.Quiet

/-!
# A walk that can be repeated

A walk depends on the nodes that it holds when it ends, and of every other node only on
the shape. It can therefore be repeated over a later tree that has the same nodes where
the walk held them, and gathers the same there.
-/

namespace QueryGraph

/-- What a walk is repeated on: the tree it was made on, the nodes it held at its end, and
the owner that repeats it. -/
structure Rerun where
  start : Tree
  held : List NodeId
  again : Owner

/-- The same walk made over another tree by another owner. -/
def Walk.onto
    (walk : Walk)
    (tree : Tree)
    (owner : Owner) : Walk :=
  { walk with tree := tree, guard := { owner := owner, held := walk.guard.held } }

/-- A tree on which a walk can go on as on its own. -/
structure Rerun.Fits
    (rerun : Rerun)
    (walk : Walk)
    (tree : Tree) : Prop where
  nodes : walk.tree.nodes = rerun.start.nodes
  agree : Tree.Matches rerun.held rerun.start tree
  free : ∀ id ∈ rerun.held, tree.contains id = true ∧ (tree.hold id).Admits rerun.again

namespace Rerun.Fits

variable {rerun : Rerun} {walk : Walk} {tree : Tree}

/-- The two trees agree on what the walk held at its end. -/
theorem agreeNow (fits : rerun.Fits walk tree) : Tree.Matches rerun.held walk.tree tree :=
  (Tree.Matches.of_nodes fits.nodes.symm rerun.held).trans fits.agree

/-- A step that leaves the nodes as they are keeps the other tree fitting. -/
theorem of_tallies
    {after : Walk}
    (fits : rerun.Fits walk tree)
    (tallies : walk.Tallies after) :
    rerun.Fits after tree where
  nodes := tallies.nodes.trans fits.nodes
  agree := fits.agree
  free := fits.free

end Rerun.Fits

namespace Walking

/-- A step that takes holds only, and whose success a second step repeats on every tree
that fits. -/
structure Follows
    (rerun : Rerun)
    (first second : Walking α) : Prop where
  tallies : Obeys tally first
  repeats : ∀ {walk value after tree}, rerun.Fits walk tree -> first walk = .ok value after ->
    after.guard.held ⊆ rerun.held -> ∃ later,
      second (walk.onto tree rerun.again) = .ok value (after.onto later rerun.again) ∧
        rerun.Fits after later

namespace Follows

variable {rerun : Rerun}

theorem pure (value : α) : Follows rerun (pure value) (pure value) where
  tallies := Obeys.pure tally_lawful value
  repeats := by
    intro walk _ after tree fits done _
    cases done
    exact ⟨tree, rfl, fits⟩

theorem throw (error : CompileError) (second : Walking α) :
    Follows rerun (throw error) second where
  tallies := Walk.Tallies.refl
  repeats := by
    intro _ _ _ _ _ done _
    cases done

theorem bind
    {first second : Walking α}
    {firstRest secondRest : α -> Walking β}
    (start : Follows rerun first second)
    (rest : ∀ value, Follows rerun (firstRest value) (secondRest value)) :
    Follows rerun (first >>= firstRest) (second >>= secondRest) where
  tallies := Obeys.bind tally_lawful start.tallies fun value => (rest value).tallies
  repeats := by
    intro walk value after tree fits done covered
    obtain ⟨middle, between, firstDone, restDone⟩ := Operation.bind_eq_ok.mp done
    have grown : between.Tallies after := (rest middle).tallies.of_ok restDone
    obtain ⟨treeBetween, secondDone, fitsBetween⟩ :=
      start.repeats fits firstDone (grown.held_subset covered)
    obtain ⟨later, lastDone, fitsLater⟩ := (rest middle).repeats fitsBetween restDone covered
    exact ⟨later, Operation.bind_eq_ok.mpr ⟨middle, _, secondDone, lastDone⟩, fitsLater⟩

theorem forM
    {first second : α -> Walking PUnit}
    (items : List α)
    (follows : ∀ item, Follows rerun (first item) (second item)) :
    Follows rerun (items.forM first) (items.forM second) := by
  induction items with
  | nil => exact pure PUnit.unit
  | cons item items inductionHypothesis => exact bind (follows item) fun _ => inductionHypothesis

theorem mapM
    {first second : α -> Walking β}
    (items : List α)
    (follows : ∀ item, Follows rerun (first item) (second item)) :
    Follows rerun (items.mapM first) (items.mapM second) := by
  induction items with
  | nil => exact pure []
  | cons item items inductionHypothesis =>
      rw [List.mapM_cons, List.mapM_cons]
      exact bind (follows item) fun head => bind inductionHypothesis fun tail => pure (head :: tail)

/-- Looking at the tree is repeated where both trees give the same answer. -/
theorem read
    {query : Tree -> Except TreeError α}
    (stable : ∀ {first second value}, first.nodes = rerun.start.nodes ->
      Tree.Matches rerun.held first second -> query first = .ok value ->
        query second = .ok value) :
    Follows rerun (Walking.read query) (Walking.read query) where
  tallies := Obeys.read tally_lawful query
  repeats := by
    intro walk value after tree fits done _
    obtain ⟨found, rfl⟩ := read_eq_ok.mp done
    exact ⟨tree, read_eq_ok.mpr ⟨stable fits.nodes fits.agreeNow found, rfl⟩, fits⟩

theorem onAllocator (action : EStateM CompileError PathAllocator α) :
    Follows rerun (onAllocator action) (onAllocator action) where
  tallies := by
    intro walk
    unfold ObeysAt Walking.onAllocator
    cases action walk.allocator <;> exact Walk.Tallies.of_eq rfl rfl
  repeats := by
    intro walk value after tree fits done _
    obtain ⟨allocator, found, rfl⟩ := onAllocator_eq_ok.mp done
    exact ⟨tree, onAllocator_eq_ok.mpr ⟨allocator, found, rfl⟩, fits.of_tallies (.of_eq rfl rfl)⟩

theorem onParameters (action : EStateM CompileError ParameterRegistry α) :
    Follows rerun (onParameters action) (onParameters action) where
  tallies := by
    intro walk
    unfold ObeysAt Walking.onParameters
    cases action walk.parameters <;> exact Walk.Tallies.of_eq rfl rfl
  repeats := by
    intro walk value after tree fits done _
    obtain ⟨parameters, found, rfl⟩ := onParameters_eq_ok.mp done
    exact ⟨tree, onParameters_eq_ok.mpr ⟨parameters, found, rfl⟩,
      fits.of_tallies (.of_eq rfl rfl)⟩

/-- A hold that the walk kept can be taken again by an owner to whom its nodes are free. -/
theorem hold (id : NodeId) : Follows rerun (hold id) (hold id) where
  tallies := tally_primitive.hold id
  repeats := by
    intro walk value after tree fits done covered
    have fitsAfter := fits.of_tallies (tallies_of_hold done)
    obtain ⟨taken, -, rfl⟩ := hold_eq_ok.mp done
    obtain ⟨present, admits⟩ := fits.free id (covered List.mem_cons_self)
    refine ⟨tree.setHold id ⟨some rerun.again, (tree.hold id).count + 1⟩,
      hold_eq_ok.mpr ⟨_, Tree.freeze_of_admits present admits, rfl⟩, ?_⟩
    refine ⟨fitsAfter.nodes, fits.agree.trans (.of_nodes (Tree.nodes_setHold tree id _) _), ?_⟩
    intro other member
    obtain ⟨otherPresent, otherAdmits⟩ := fits.free other member
    refine ⟨otherPresent, ?_⟩
    rw [Tree.hold_setHold _ present]
    by_cases same : other = id
    · rw [if_pos same]
      exact Or.inr rfl
    · rw [if_neg same]
      exact otherAdmits

theorem holdAll (ids : List NodeId) : Follows rerun (holdAll ids) (holdAll ids) :=
  forM ids hold

theorem within
    {first second : Walking Unit}
    (entry : StackEntry)
    (step : Follows rerun first second) :
    Follows rerun (within entry first) (within entry second) :=
  bind (onAllocator _) fun _ => bind step fun _ => bind (onAllocator _) fun _ => pure ()

/-! ## Visiting expressions -/

theorem visitPath (id : NodeId) : Follows rerun (visitPath id) (visitPath id) where
  tallies := tally_primitive.visitPath id
  repeats := by
    intro walk value after tree fits done covered
    obtain ⟨fault, chain, held, identity, allocator, found, holds, inScope, allocated, nonempty,
      rfl⟩ := visitPath_eq_ok.mp done
    obtain ⟨source, sameStatement, foundLater⟩ := fits.agreeNow.evolves.pathChain found
    have fitsEntered : rerun.Fits (walk.entering (.node id)) tree :=
      fits.of_tallies (.of_eq rfl rfl)
    obtain ⟨later, holdsLater, fitsLater⟩ :=
      (holdAll chain.below).repeats fitsEntered holds covered
    have inScopeLater : source.statement ∈ (held.onto later rerun.again).enclosing := by
      rw [sameStatement]
      exact inScope
    exact ⟨later, visitPath_eq_ok.mpr ⟨fault, _, held.onto later rerun.again, identity, allocator,
      foundLater, holdsLater, inScopeLater, allocated, nonempty, rfl⟩,
      fitsLater.of_tallies (.of_eq rfl rfl)⟩

theorem visitParameter
    (id : NodeId)
    (name : Option String) :
    Follows rerun (visitParameter id name) (visitParameter id name) := by
  apply within _
  cases name with
  | some name => exact onParameters _
  | none => exact bind (onParameters _) fun _ => pure ()

theorem visitLiteral
    (id : NodeId)
    (value : Literal) :
    Follows rerun (visitLiteral id value) (visitLiteral id value) := by
  refine within _ ⟨fun _ => Walk.Tallies.of_eq rfl rfl, ?_⟩
  intro walk _ after tree fits done _
  cases done
  exact ⟨tree, rfl, fits.of_tallies (.of_eq rfl rfl)⟩

theorem visitContents
    {first second : NodeId -> Walking Unit}
    (expression : ∀ id, Follows rerun (first id) (second id))
    (id : NodeId)
    (node : Node) :
    Follows rerun (visitContents first id node) (visitContents second id node) := by
  cases node with
  | statement body => exact throw _ _
  | source body => exact visitPath id
  | fetch body => exact throw _ _
  | path parent field => exact visitPath id
  | treat target asType => exact visitPath id
  | parameter name => exact visitParameter id name
  | literal value => exact visitLiteral id value
  | expression operator operands => exact within _ (forM operands expression)
  | order ordered ascending => exact within _ (expression ordered)
  | assignment target value =>
      exact within _ (bind (expression target) fun _ => expression value)

theorem visitNode
    {firstSubquery secondSubquery first second : NodeId -> Walking Unit}
    (subquery : ∀ id, Follows rerun (firstSubquery id) (secondSubquery id))
    (expression : ∀ id, Follows rerun (first id) (second id))
    (id : NodeId)
    (node : Node) :
    Follows rerun (visitNode firstSubquery first id node)
      (visitNode secondSubquery second id node) := by
  cases node with
  | statement body =>
      unfold Walking.visitNode
      by_cases isSubquery : body.kind = .subquery
      · simp only [isSubquery, if_true]
        exact subquery id
      · simp only [isSubquery, if_false]
        exact bind (hold id) fun _ => visitContents expression id (.statement body)
  | _ => exact bind (hold id) fun _ => visitContents expression id _

end Follows

/-! ## A visited node is held -/

theorem mem_held_of_visitNode
    {subquery expression : NodeId -> Walking Unit}
    {id : NodeId}
    {node : Node}
    {before after : Walk}
    (subqueryHolds : ∀ {before after}, subquery id before = .ok () after ->
      id ∈ after.guard.held)
    (expressionObeys : ∀ id, Obeys tally (expression id))
    (done : visitNode subquery expression id node before = .ok () after) :
    id ∈ after.guard.held := by
  have afterHold : ∀ {other}, (hold id >>= fun _ => visitContents expression id other) before =
      .ok () after -> id ∈ after.guard.held := by
    intro other visited
    obtain ⟨⟨⟩, held, holds, rest⟩ := Operation.bind_eq_ok.mp visited
    have grown : held.Tallies after :=
      (obeys_visitContents tally_primitive.expressive expressionObeys id other).of_ok rest
    obtain ⟨tree, -, rfl⟩ := hold_eq_ok.mp holds
    exact grown.held.subset List.mem_cons_self
  cases node with
  | statement body =>
      unfold visitNode at done
      by_cases isSubquery : body.kind = .subquery
      · simp only [isSubquery, if_true] at done
        exact subqueryHolds done
      · simp only [isSubquery, if_false] at done
        exact afterHold done
  | _ => exact afterHold done

theorem mem_held_of_enterStatement
    {schema : Schema}
    {expression : NodeId -> Walking Unit}
    {id : NodeId}
    {before after : Walk}
    (expressionObeys : ∀ id, Obeys tally (expression id))
    (done : enterStatement schema expression id before = .ok () after) :
    id ∈ after.guard.held := by
  obtain ⟨-, held, statement, holds, -, inside⟩ := enterStatement_eq_ok.mp done
  have rest : held.Tallies after :=
    (tally_primitive.within _ (Tally.visitBody schema id statement expressionObeys)).of_ok inside
  obtain ⟨tree, -, rfl⟩ := hold_eq_ok.mp holds
  exact rest.held.subset List.mem_cons_self

/-- The joins and fetches below every visited root are held. -/
theorem subset_held_of_visitRoots
    {schema : Schema}
    {isFirst : Bool}
    {roots : List NodeId}
    {vertices : List (List VertexId)}
    {before after : Walk}
    (done : roots.mapM (visitRoot schema isFirst) before = .ok vertices after) :
    ∀ root ∈ roots, ∃ source, before.tree.sourceTree root = .ok source ∧
      source.ids ⊆ after.guard.held := by
  induction roots generalizing before vertices with
  | nil => simp
  | cons first rest inductionHypothesis =>
      rw [List.mapM_cons] at done
      obtain ⟨head, between, firstDone, last⟩ := Operation.bind_eq_ok.mp done
      obtain ⟨tail, final, restDone, last⟩ := Operation.bind_eq_ok.mp last
      cases last
      have firstTallies : before.Tallies between :=
        (Tally.visitRoot schema isFirst first).of_ok firstDone
      have restTallies : between.Tallies after :=
        (Obeys.mapM tally_lawful fun root _ => Tally.visitRoot schema isFirst root).of_ok restDone
      intro root member
      rcases List.mem_cons.mp member with rfl | later
      · obtain ⟨source, held, found, holds, last⟩ := visitRoot_eq_ok.mp firstDone
        have sameGuard : between.guard = held.guard := by
          rcases last with ⟨-, -, rfl⟩ | ⟨-, vertex, sources, -, -, rfl⟩ <;> rfl
        have covered := subset_held_of_holdAll holds
        rw [← sameGuard] at covered
        exact ⟨source, found, List.Subset.trans covered restTallies.held.subset⟩
      · obtain ⟨source, found, covered⟩ := inductionHypothesis restDone root later
        refine ⟨source, ?_, covered⟩
        exact (Tree.Matches.of_nodes firstTallies.nodes.symm source.ids).sourceTree
          (List.Subset.refl _) found

theorem subset_held_of_visitSources
    {schema : Schema}
    {id : NodeId}
    {statement : Statement}
    {before after : Walk}
    (done : visitSources schema id statement before = .ok () after) :
    ∀ root ∈ statement.roots, ∃ source, before.tree.sourceTree root = .ok source ∧
      source.ids ⊆ after.guard.held := by
  obtain ⟨-, roots, built, correlated, rootsDone, correlationsDone, last⟩ :=
    visitSources_eq_ok.mp done
  have grown : built.Tallies correlated :=
    (Obeys.forM tally_lawful fun source _ => Tally.visitCorrelation id source).of_ok
      correlationsDone
  have sameGuard : after.guard = correlated.guard := by
    rw [last]
    split <;> rfl
  intro root member
  obtain ⟨source, found, covered⟩ := subset_held_of_visitRoots rootsDone root member
  rw [sameGuard]
  exact ⟨source, found, List.Subset.trans covered grown.held.subset⟩

/-! ## Visiting statements -/

namespace Follows

variable {rerun : Rerun} {schema : Schema}

theorem visitRoot
    (isFirst : Bool)
    (root : NodeId) :
    Follows rerun (visitRoot schema isFirst root) (visitRoot schema isFirst root) where
  tallies := Tally.visitRoot schema isFirst root
  repeats := by
    intro walk vertices after tree fits done covered
    obtain ⟨source, held, found, holds, last⟩ := visitRoot_eq_ok.mp done
    have sameGuard : after.guard = held.guard := by
      rcases last with ⟨-, -, rfl⟩ | ⟨-, vertex, sources, -, -, rfl⟩ <;> rfl
    rw [sameGuard] at covered
    have foundLater := fits.agreeNow.sourceTree
      (List.Subset.trans (subset_held_of_holdAll holds) covered) found
    obtain ⟨later, holdsLater, fitsLater⟩ := (holdAll source.ids).repeats fits holds covered
    rcases last with ⟨notFirst, rfl, rfl⟩ | ⟨first, vertex, sources, built, rfl, rfl⟩
    · exact ⟨later, visitRoot_eq_ok.mpr ⟨source, _, foundLater, holdsLater,
        Or.inl ⟨notFirst, rfl, rfl⟩⟩, fitsLater⟩
    · exact ⟨later, visitRoot_eq_ok.mpr ⟨source, _, foundLater, holdsLater,
        Or.inr ⟨first, vertex, sources, built, rfl, rfl⟩⟩, fitsLater.of_tallies (.of_eq rfl rfl)⟩

theorem visitCorrelation (statement correlated : NodeId) :
    Follows rerun (visitCorrelation statement correlated)
      (visitCorrelation statement correlated) where
  tallies := Tally.visitCorrelation statement correlated
  repeats := by
    intro walk value after tree fits done covered
    obtain ⟨held, outer, vertex, holds, resolved, declared, rfl⟩ := visitCorrelation_eq_ok.mp done
    obtain ⟨later, holdsLater, fitsLater⟩ := (hold correlated).repeats fits holds covered
    have resolvedLater := fitsLater.agreeNow.evolves.resolveCorrelation resolved
    exact ⟨later, visitCorrelation_eq_ok.mpr ⟨held.onto later rerun.again, outer, vertex,
      holdsLater, resolvedLater, declared, rfl⟩, fitsLater.of_tallies (.of_eq rfl rfl)⟩

theorem visitSources
    (id : NodeId)
    (statement : Statement) :
    Follows rerun (visitSources schema id statement) (visitSources schema id statement) where
  tallies := Tally.visitSources schema id statement
  repeats := by
    intro walk value after tree fits done covered
    obtain ⟨nonempty, roots, built, correlated, rootsDone, correlationsDone, last⟩ :=
      visitSources_eq_ok.mp done
    have sameGuard : after.guard = correlated.guard := by
      rw [last]
      split <;> rfl
    rw [sameGuard] at covered
    have correlationsFollow : Follows rerun
        (statement.correlations.forM (Walking.visitCorrelation id))
        (statement.correlations.forM (Walking.visitCorrelation id)) :=
      forM statement.correlations (visitCorrelation id)
    have grown : built.Tallies correlated := correlationsFollow.tallies.of_ok correlationsDone
    obtain ⟨treeBuilt, rootsLater, fitsBuilt⟩ :=
      (mapM statement.roots (visitRoot (isFirstVisit walk id))).repeats fits rootsDone
        (grown.held_subset covered)
    obtain ⟨later, correlationsLater, fitsLater⟩ :=
      correlationsFollow.repeats fitsBuilt correlationsDone covered
    refine ⟨later, visitSources_eq_ok.mpr ⟨nonempty, roots, built.onto treeBuilt rerun.again,
      correlated.onto later rerun.again, rootsLater, correlationsLater, ?_⟩, ?_⟩
    · change _ = if isFirstVisit walk id then _ else _
      rw [last]
      split <;> rfl
    · rw [last]
      split <;> exact fitsLater.of_tallies (.of_eq rfl rfl)

theorem clauseItems
    {statement : Statement}
    (rootsHeld : ∀ root ∈ statement.roots, ∃ source,
      rerun.start.sourceTree root = .ok source ∧ source.ids ⊆ rerun.held)
    (clause : Clause) :
    Follows rerun (clauseItems statement clause) (clauseItems statement clause) := by
  cases clause with
  | on =>
      refine bind (read ?_) fun sources => pure _
      intro first second sources nodes agree found
      apply Operation.mapM_eq_ok_of_imp found
      intro root member source _ sourceFound
      obtain ⟨started, startFound, covered⟩ := rootsHeld root member
      have sameFirst := (Tree.Matches.of_nodes nodes started.ids).sourceTree
        (List.Subset.refl _) startFound
      rw [sourceFound] at sameFirst
      cases sameFirst
      exact agree.sourceTree covered sourceFound
  | _ => exact pure _

theorem visitBody
    {first second : NodeId -> Walking Unit}
    (expression : ∀ id, Follows rerun (first id) (second id))
    (id : NodeId)
    (statement : Statement) :
    Follows rerun (visitBody schema first id statement)
      (visitBody schema second id statement) where
  tallies := Tally.visitBody schema id statement fun other => (expression other).tallies
  repeats := by
    intro walk value after tree fits done covered
    obtain ⟨declared, visited, sources, visits, rfl⟩ := visitBody_eq_ok.mp done
    have clausesObey : Obeys tally ((clauses statement.kind).forM (visitClause first statement)) :=
      Obeys.forM tally_lawful fun clause _ => tally_primitive.within _
        (Obeys.bind tally_lawful (tally_primitive.clauseItems statement clause) fun items =>
          Obeys.forM tally_lawful fun item _ => (expression item).tallies)
    have grown : declared.Tallies visited := clausesObey.of_ok visits
    have declaredHeld := grown.held_subset covered
    have rootsHeld : ∀ root ∈ statement.roots, ∃ source,
        rerun.start.sourceTree root = .ok source ∧ source.ids ⊆ rerun.held := by
      intro root member
      obtain ⟨source, found, sourceHeld⟩ := subset_held_of_visitSources sources root member
      refine ⟨source, ?_, List.Subset.trans sourceHeld declaredHeld⟩
      exact (Tree.Matches.of_nodes fits.nodes.symm source.ids).sourceTree
        (List.Subset.refl _) found
    have fitsOpened : rerun.Fits (walk.opening id) tree := fits.of_tallies (.of_eq rfl rfl)
    obtain ⟨treeDeclared, sourcesLater, fitsDeclared⟩ :=
      (visitSources id statement).repeats fitsOpened sources declaredHeld
    have clausesFollow := forM (clauses statement.kind) fun clause =>
      within (.clause clause) (bind (clauseItems rootsHeld clause) fun items =>
        forM items expression)
    obtain ⟨later, visitsLater, fitsLater⟩ := clausesFollow.repeats fitsDeclared visits covered
    exact ⟨later, visitBody_eq_ok.mpr ⟨_, visited.onto later rerun.again, sourcesLater,
      visitsLater, rfl⟩, fitsLater.of_tallies (.of_eq rfl rfl)⟩

theorem enterStatement
    {first second : NodeId -> Walking Unit}
    (expression : ∀ id, Follows rerun (first id) (second id))
    (id : NodeId) :
    Follows rerun (enterStatement schema first id) (enterStatement schema second id) where
  tallies := (tally_complete schema).statement fun other => (expression other).tallies
  repeats := by
    intro walk value after tree fits done covered
    have isHeld := covered
      (mem_held_of_enterStatement (fun other => (expression other).tallies) done)
    obtain ⟨closed, held, statement, holds, found, inside⟩ := enterStatement_eq_ok.mp done
    have insideFollows : Follows rerun
        (Walking.within (.statement id statement.kind)
          (Walking.visitBody schema first id statement))
        (Walking.within (.statement id statement.kind)
          (Walking.visitBody schema second id statement)) :=
      within _ (visitBody expression id statement)
    have grown : held.Tallies after := insideFollows.tallies.of_ok inside
    obtain ⟨treeHeld, holdsLater, fitsHeld⟩ :=
      (hold id).repeats fits holds (grown.held_subset covered)
    have foundLater : treeHeld.statement id = .ok statement := by
      rw [Tree.statement_eq_ok] at found ⊢
      rw [fitsHeld.agreeNow.node?_eq id isHeld, found]
    obtain ⟨later, insideLater, fitsLater⟩ := insideFollows.repeats fitsHeld inside covered
    exact ⟨later, enterStatement_eq_ok.mpr ⟨closed, _, statement, holdsLater, foundLater,
      insideLater⟩, fitsLater⟩

/-! ## Visiting a whole tree -/

theorem visitExpression
    {first second : NodeId -> Walking Unit}
    (subquery : ∀ id, Follows rerun (first id) (second id))
    (subqueryHolds : ∀ {id before after}, first id before = .ok () after -> id ∈ after.guard.held)
    {fuel more : Nat}
    (enough : fuel ≤ more)
    (id : NodeId) :
    Follows rerun (visitExpression first fuel id) (visitExpression second more id) := by
  induction fuel generalizing more id with
  | zero => exact throw _ _
  | succ fuel inductionHypothesis =>
      obtain ⟨more, rfl⟩ : ∃ rest, more = rest + 1 := ⟨more - 1, by omega⟩
      have inner := inductionHypothesis (Nat.le_of_succ_le_succ enough)
      refine ⟨?_, ?_⟩
      · rw [visitExpression_succ]
        exact Obeys.bind tally_lawful (Obeys.read tally_lawful _) fun node =>
          (visitNode subquery inner id node).tallies
      · intro walk value after tree fits done covered
        obtain ⟨node, found, visited⟩ := visitExpression_succ_eq_ok.mp done
        have isHeld := covered
          (mem_held_of_visitNode subqueryHolds (fun other => (inner other).tallies) visited)
        have foundLater : tree.node id = .ok node := by
          rw [Tree.node_eq_ok] at found ⊢
          rw [fits.agreeNow.node?_eq id isHeld, found]
        obtain ⟨later, visitedLater, fitsLater⟩ :=
          (visitNode subquery inner id node).repeats fits visited covered
        exact ⟨later, visitExpression_succ_eq_ok.mpr ⟨node, foundLater, visitedLater⟩, fitsLater⟩

theorem visitStatement
    {bound moreBound fuel more : Nat}
    (enoughBound : bound ≤ moreBound)
    (enough : fuel ≤ more)
    (id : NodeId) :
    Follows rerun (visitStatement schema bound fuel id)
      (visitStatement schema moreBound more id) := by
  induction fuel generalizing more id with
  | zero => exact throw _ _
  | succ fuel inductionHypothesis =>
      obtain ⟨more, rfl⟩ : ∃ rest, more = rest + 1 := ⟨more - 1, by omega⟩
      have inner := inductionHypothesis (Nat.le_of_succ_le_succ enough)
      rw [visitStatement_succ, visitStatement_succ]
      refine enterStatement (visitExpression inner ?_ enoughBound) id
      intro other before after done
      cases fuel with
      | zero => cases done
      | succ fuel =>
          rw [visitStatement_succ] at done
          exact mem_held_of_enterStatement
            (obeys_visitExpression tally_primitive.expressive
              (obeys_visitStatement (tally_complete schema) bound fuel) bound) done

end Follows

/-- A walk can be repeated over a later tree in which the nodes that it held are the same
and free, and gathers the same there. -/
theorem walkTree_repeats
    {schema : Schema}
    {tree later : Tree}
    {owner : Owner}
    {after : Walk}
    (again : Owner)
    (done : walkTree schema { tree := tree, guard := { owner := owner } } = .ok () after)
    (agree : Tree.Matches after.guard.held tree later)
    (free : ∀ id ∈ after.guard.held, later.contains id = true ∧ (later.hold id).Admits again) :
    ∃ held, walkTree schema { tree := later, guard := { owner := again } } =
      .ok () (after.onto held again) ∧ Tree.Matches after.guard.held tree held := by
  have sizes := agree.evolves.size_le
  have follows : Follows ⟨tree, after.guard.held, again⟩
      (visitStatement schema (tree.size + 1) (tree.size + 1) Tree.top)
      (visitStatement schema (later.size + 1) (later.size + 1) Tree.top) :=
    Follows.visitStatement (by omega) (by omega) Tree.top
  have fits : Rerun.Fits ⟨tree, after.guard.held, again⟩
      { tree := tree, guard := { owner := owner } } later := ⟨rfl, agree, free⟩
  obtain ⟨held, doneLater, fitsLater⟩ := follows.repeats fits done (List.Subset.refl _)
  exact ⟨held, doneLater, fitsLater.agree⟩

end Walking
end QueryGraph
