import QueryGraph.Compile.Walk
import QueryGraph.Proofs.Operation

/-!
# The steps of a walk that succeeds

What each step did when it succeeded, in terms of the steps that it consists of.
-/

namespace QueryGraph
namespace Walk

/-- A walk that has entered an entry of the path stack. -/
def entering (walk : Walk) (entry : StackEntry) : Walk :=
  { walk with
    allocator := { walk.allocator with stack := entry :: walk.allocator.stack } }

/-- A walk that has left the innermost entry of the path stack. -/
def leaving (walk : Walk) : Walk :=
  { walk with allocator := { walk.allocator with stack := walk.allocator.stack.tail } }

/-- A walk that has opened a statement. -/
def opening (walk : Walk) (id : NodeId) : Walk :=
  { walk with enclosing := id :: walk.enclosing }

/-- A walk that has closed the innermost statement. -/
def closing (walk : Walk) : Walk :=
  { walk with enclosing := walk.enclosing.tail }

/-- A walk after taking a hold that led to a tree. -/
def holding
    (walk : Walk)
    (id : NodeId)
    (tree : Tree) : Walk :=
  { walk with
    guard := { walk.guard with held := id :: walk.guard.held }
    tree := tree }

end Walk

namespace Walking

variable {before after : Walk}

/-! ## Steps on a part of a walk -/

theorem read_eq_ok
    {query : Tree -> Except TreeError α}
    {value : α} :
    read query before = .ok value after ↔ query before.tree = .ok value ∧ after = before := by
  unfold read
  rw [Operation.bind_of_ok (Operation.get_apply before)]
  cases query before.tree with
  | error error => simp
  | ok found =>
      simp only [Operation.pure_apply, EStateM.Result.ok.injEq, Except.ok.injEq]
      constructor
      · rintro ⟨rfl, rfl⟩
        exact ⟨rfl, rfl⟩
      · rintro ⟨rfl, rfl⟩
        exact ⟨rfl, rfl⟩

theorem read_of_refused
    {query : Tree -> Except TreeError α}
    {error : TreeError}
    (refused : query before.tree = .error error) :
    read query before = .error (.tree error) before := by
  unfold read
  rw [Operation.bind_of_ok (Operation.get_apply before)]
  simp only [refused]
  rfl

theorem hold_eq_ok {id : NodeId} :
    hold id before = .ok () after ↔
      ∃ tree, Tree.freeze id before.guard.owner before.tree = .ok () tree ∧
        after = before.holding id tree := by
  unfold hold Guard.freeze
  rw [Operation.bind_apply]
  cases Tree.freeze id before.guard.owner before.tree with
  | error error tree => simp
  | ok value tree =>
      simp only [Operation.pure_apply, EStateM.Result.ok.injEq, true_and, eq_comm (a := after)]
      constructor
      · intro same
        exact ⟨tree, rfl, same⟩
      · rintro ⟨_, rfl, same⟩
        exact same

theorem hold_of_refused
    {id : NodeId}
    {tree : Tree}
    {error : FreezeError}
    (refused : Tree.freeze id before.guard.owner before.tree = .error error tree) :
    hold id before = .error (.freeze error) { before with tree := tree } := by
  unfold hold Guard.freeze
  rw [Operation.bind_of_error refused]

theorem onAllocator_eq_ok
    {action : EStateM CompileError PathAllocator α}
    {value : α} :
    onAllocator action before = .ok value after ↔
      ∃ allocator, action before.allocator = .ok value allocator ∧
        after = { before with allocator := allocator } := by
  unfold onAllocator
  cases action before.allocator with
  | error error allocator => simp
  | ok found allocator =>
      simp only [EStateM.Result.ok.injEq]
      constructor
      · rintro ⟨rfl, rfl⟩
        exact ⟨allocator, ⟨rfl, rfl⟩, rfl⟩
      · rintro ⟨_, ⟨rfl, rfl⟩, rfl⟩
        exact ⟨rfl, rfl⟩

theorem onSources_eq_ok
    {action : Graphing α}
    {value : α} :
    onSources action before = .ok value after ↔
      ∃ sources, action before.sources = .ok value sources ∧
        after = { before with sources := sources } := by
  unfold onSources
  cases action before.sources with
  | error error sources => simp
  | ok found sources =>
      simp only [EStateM.Result.ok.injEq]
      constructor
      · rintro ⟨rfl, rfl⟩
        exact ⟨sources, ⟨rfl, rfl⟩, rfl⟩
      · rintro ⟨_, ⟨rfl, rfl⟩, rfl⟩
        exact ⟨rfl, rfl⟩

theorem onParameters_eq_ok
    {action : EStateM CompileError ParameterRegistry α}
    {value : α} :
    onParameters action before = .ok value after ↔
      ∃ parameters, action before.parameters = .ok value parameters ∧
        after = { before with parameters := parameters } := by
  unfold onParameters
  cases action before.parameters with
  | error error parameters => simp
  | ok found parameters =>
      simp only [EStateM.Result.ok.injEq]
      constructor
      · rintro ⟨rfl, rfl⟩
        exact ⟨parameters, ⟨rfl, rfl⟩, rfl⟩
      · rintro ⟨_, ⟨rfl, rfl⟩, rfl⟩
        exact ⟨rfl, rfl⟩

/-! ## The path stack -/

theorem push_eq_ok
    {entry : StackEntry}
    {value : Unit}
    {before after : PathAllocator} :
    PathAllocator.push entry before = .ok value after ↔
      PathAllocator.pushFault? entry before.peek = none ∧
        after = { before with stack := entry :: before.stack } := by
  unfold PathAllocator.push
  rw [Operation.bind_of_ok (Operation.get_apply before)]
  cases PathAllocator.pushFault? entry before.peek with
  | some fault => simp
  | none => simp [eq_comm]

theorem pop_eq_ok
    {top : StackEntry}
    {before after : PathAllocator} :
    PathAllocator.pop before = .ok top after ↔
      before.stack = top :: after.stack ∧ after = { before with stack := before.stack.tail } := by
  obtain ⟨stack, seen, mode⟩ := before
  obtain ⟨stackAfter, seenAfter, modeAfter⟩ := after
  unfold PathAllocator.pop
  rw [Operation.bind_of_ok (Operation.get_apply _)]
  cases stack with
  | nil => simp
  | cons entry rest =>
      change EStateM.Result.ok entry (⟨rest, seen, mode⟩ : PathAllocator) = _ ↔ _
      simp only [EStateM.Result.ok.injEq, PathAllocator.mk.injEq, List.cons.injEq, List.tail_cons]
      constructor
      · rintro ⟨rfl, rfl, rfl, rfl⟩
        simp
      · rintro ⟨⟨rfl, rfl⟩, _, rfl, rfl⟩
        simp

theorem within_eq_ok
    {entry : StackEntry}
    {step : Walking Unit} :
    within entry step before = .ok () after ↔
      PathAllocator.pushFault? entry before.allocator.peek = none ∧
        ∃ inside, step (before.entering entry) = .ok () inside ∧
          inside.allocator.stack ≠ [] ∧ after = inside.leaving := by
  unfold within
  simp only [Operation.bind_eq_ok, onAllocator_eq_ok, push_eq_ok, Operation.pure_apply]
  constructor
  · rintro ⟨⟨⟩, _, ⟨allocator, ⟨fault, rfl⟩, rfl⟩, ⟨⟩, inside, done, top, _,
      ⟨popped, pop, rfl⟩, last⟩
    obtain ⟨stack, same⟩ := pop_eq_ok.mp pop
    cases last
    refine ⟨fault, inside, done, ?_, ?_⟩
    · rw [stack]
      exact List.cons_ne_nil _ _
    · rw [same]
      rfl
  · rintro ⟨fault, inside, done, nonempty, rfl⟩
    refine ⟨(), _, ⟨_, ⟨fault, rfl⟩, rfl⟩, (), inside, done, ?_⟩
    refine ⟨inside.allocator.stack.head nonempty, _, ⟨_, pop_eq_ok.mpr ⟨?_, rfl⟩, rfl⟩, rfl⟩
    exact (List.cons_head_tail nonempty).symm

/-! ## Visiting sources -/

theorem visitRoot_eq_ok
    {schema : Schema}
    {isFirst : Bool}
    {root : NodeId}
    {vertices : List VertexId} :
    visitRoot schema isFirst root before = .ok vertices after ↔
      ∃ source held, before.tree.sourceTree root = .ok source ∧
        holdAll source.ids before = .ok () held ∧
        ((isFirst = false ∧ vertices = [] ∧ after = held) ∨
          isFirst = true ∧ ∃ vertex sources,
            Graphing.buildRoot schema source held.sources = .ok vertex sources ∧
            vertices = [vertex] ∧ after = { held with sources := sources }) := by
  unfold visitRoot
  simp only [Operation.bind_eq_ok, read_eq_ok]
  constructor
  · rintro ⟨source, _, ⟨found, rfl⟩, ⟨⟩, held, holds, last⟩
    refine ⟨source, held, found, holds, ?_⟩
    cases isFirst with
    | false =>
        cases last
        exact Or.inl ⟨rfl, rfl, rfl⟩
    | true =>
        obtain ⟨vertex, _, built, last⟩ := Operation.bind_eq_ok.mp last
        obtain ⟨sources, done, rfl⟩ := onSources_eq_ok.mp built
        cases last
        exact Or.inr ⟨rfl, vertex, sources, done, rfl, rfl⟩
  · rintro ⟨source, held, found, holds, last⟩
    refine ⟨source, before, ⟨found, rfl⟩, (), held, holds, ?_⟩
    rcases last with ⟨rfl, rfl, rfl⟩ | ⟨rfl, vertex, sources, done, rfl, rfl⟩
    · rfl
    · exact Operation.bind_eq_ok.mpr
        ⟨vertex, _, onSources_eq_ok.mpr ⟨sources, done, rfl⟩, rfl⟩

theorem visitCorrelation_eq_ok
    {statement correlated : NodeId} :
    visitCorrelation statement correlated before = .ok () after ↔
      ∃ held outer vertex, hold correlated before = .ok () held ∧
        held.tree.resolveCorrelation correlated = .ok outer ∧
        held.sources.declared.find? outer = some vertex ∧
        after = { held with
          sources := { held.sources with
            declared := held.sources.declared.insert correlated vertex } } := by
  unfold visitCorrelation
  simp only [Operation.bind_eq_ok, read_eq_ok]
  constructor
  · rintro ⟨⟨⟩, _, holds, outer, held, ⟨found, rfl⟩, current, _, got, last⟩
    rw [Operation.get_apply] at got
    cases got
    cases declared : held.sources.declared.find? outer with
    | none =>
        rw [declared] at last
        cases last
    | some vertex =>
        rw [declared] at last
        obtain ⟨sources, done, rfl⟩ := onSources_eq_ok.mp last
        cases done
        exact ⟨held, outer, vertex, holds, found, declared, rfl⟩
  · rintro ⟨held, outer, vertex, holds, found, declared, rfl⟩
    refine ⟨(), held, holds, outer, held, ⟨found, rfl⟩, held, held, rfl, ?_⟩
    rw [declared]
    exact onSources_eq_ok.mpr ⟨_, rfl, rfl⟩

/-- Whether a walk enters a statement for the first time. -/
def isFirstVisit (walk : Walk) (id : NodeId) : Bool :=
  !walk.statementRoots.any fun entry => entry.1 = id

theorem visitSources_eq_ok
    {schema : Schema}
    {id : NodeId}
    {statement : Statement} :
    visitSources schema id statement before = .ok () after ↔
      (statement.roots.isEmpty && statement.correlations.isEmpty) = false ∧
        ∃ roots built correlated,
          statement.roots.mapM (visitRoot schema (isFirstVisit before id)) before =
            .ok roots built ∧
          statement.correlations.forM (visitCorrelation id) built = .ok () correlated ∧
          after =
            if isFirstVisit before id then
              { correlated with
                statementRoots := correlated.statementRoots ++ [(id, roots.flatten)] }
            else correlated := by
  unfold visitSources
  rw [Operation.bind_of_ok (Operation.get_apply before)]
  cases empty : statement.roots.isEmpty && statement.correlations.isEmpty with
  | true =>
      simp only [if_true, reduceCtorEq, false_and, iff_false]
      intro done
      cases done
  | false =>
      simp only [Bool.false_eq_true, if_false, true_and, Operation.bind_eq_ok]
      change (∃ roots built, _) ↔ _
      unfold isFirstVisit
      cases !before.statementRoots.any fun entry => decide (entry.1 = id) with
      | true =>
          constructor
          · rintro ⟨roots, built, rootsDone, ⟨⟩, correlated, correlationsDone, last⟩
            cases last
            exact ⟨roots, built, correlated, rootsDone, correlationsDone, rfl⟩
          · rintro ⟨roots, built, correlated, rootsDone, correlationsDone, rfl⟩
            exact ⟨roots, built, rootsDone, (), correlated, correlationsDone, rfl⟩
      | false =>
          constructor
          · rintro ⟨roots, built, rootsDone, ⟨⟩, correlated, correlationsDone, last⟩
            cases last
            exact ⟨roots, built, after, rootsDone, correlationsDone, rfl⟩
          · rintro ⟨roots, built, correlated, rootsDone, correlationsDone, last⟩
            rw [last]
            exact ⟨roots, built, rootsDone, (), correlated, correlationsDone, rfl⟩

/-! ## Visiting paths -/

theorem visitPath_eq_ok {id : NodeId} :
    visitPath id before = .ok () after ↔
      PathAllocator.pushFault? (.node id) before.allocator.peek = none ∧
        ∃ chain held identity allocator,
          before.tree.pathChain id = .ok chain ∧
          holdAll chain.below (before.entering (.node id)) = .ok () held ∧
          chain.source.statement ∈ held.enclosing ∧
          PathAllocator.allocate held.allocator = .ok identity allocator ∧
          allocator.stack ≠ [] ∧
          after = Walk.leaving { held with allocator := allocator } := by
  unfold visitPath
  rw [within_eq_ok]
  apply and_congr_right
  intro _
  simp only [Operation.bind_eq_ok, read_eq_ok]
  constructor
  · rintro ⟨inside, ⟨chain, _, ⟨found, rfl⟩, ⟨⟩, held, holds, current, _, got, last⟩, nonempty, rfl⟩
    rw [Operation.get_apply] at got
    cases got
    by_cases outside : chain.source.statement ∉ held.enclosing
    · simp only [if_pos outside] at last
      cases last
    · simp only [if_neg outside] at last
      obtain ⟨identity, _, allocated, last⟩ := Operation.bind_eq_ok.mp last
      obtain ⟨allocator, done, rfl⟩ := onAllocator_eq_ok.mp allocated
      cases last
      exact ⟨chain, held, identity, allocator, found, holds, Decidable.not_not.mp outside, done,
        nonempty, rfl⟩
  · rintro ⟨chain, held, identity, allocator, found, holds, inScope, done, nonempty, rfl⟩
    refine ⟨_, ⟨chain, _, ⟨found, rfl⟩, (), held, holds, held, held, rfl, ?_⟩, nonempty, rfl⟩
    simp only [if_neg (not_not_intro inScope)]
    exact Operation.bind_eq_ok.mpr ⟨identity, _, onAllocator_eq_ok.mpr ⟨_, done, rfl⟩, rfl⟩

/-- A recording allocator records what it allocates. -/
theorem allocate_eq_ok
    {before after : PathAllocator}
    {allocated : List PathIdentity}
    {identity : PathIdentity}
    (primary : before.mode = .primary allocated) :
    PathAllocator.allocate before = .ok identity after ↔
      ∃ node around, before.stack = .node node :: around ∧
        identity = ⟨node, around, before.seen.count node⟩ ∧
        after = { before with
          seen := node :: before.seen
          mode := .primary (allocated ++ [identity]) } := by
  unfold PathAllocator.allocate
  rw [Operation.bind_of_ok (Operation.get_apply before)]
  obtain ⟨stack, seen, mode⟩ := before
  cases primary
  match stack with
  | [] => simp
  | .statement _ _ :: _ => simp
  | .clause _ :: _ => simp
  | .compound _ :: _ => simp
  | .node node :: around =>
      simp only [List.cons.injEq, StackEntry.node.injEq]
      rw [Operation.bind_of_ok (Operation.set_apply _ _)]
      simp only [Operation.pure_apply, EStateM.Result.ok.injEq]
      constructor
      · rintro ⟨rfl, rfl⟩
        exact ⟨node, around, ⟨rfl, rfl⟩, rfl, rfl⟩
      · rintro ⟨_, _, ⟨rfl, rfl⟩, rfl, rfl⟩
        exact ⟨rfl, rfl⟩

/-! ## Visiting expressions -/

/-- What happens to a held node that is no subquery, given how an expression is
visited. -/
def visitContents
    (expression : NodeId -> Walking Unit)
    (id : NodeId) : Node -> Walking Unit
  | .source _ | .path _ _ | .treat _ _ => visitPath id
  | .parameter name => visitParameter id name
  | .literal value => visitLiteral id value
  | .expression operator operands =>
      within (if operator = .tuple then .compound id else .node id) (operands.forM expression)
  | .order ordered _ => within (.node id) (expression ordered)
  | .assignment target value =>
      within (.node id) do
        expression target
        expression value
  | .statement body => throw (.tree (.notAnExpression id (Node.statement body).kindName))
  | .fetch body => throw (.tree (.notAnExpression id (Node.fetch body).kindName))

/-- What happens to a node, given how a subquery and how an expression is visited. -/
def visitNode
    (subquery expression : NodeId -> Walking Unit)
    (id : NodeId)
    (node : Node) : Walking Unit :=
  match node with
  | .statement body =>
      if body.kind = .subquery then subquery id
      else do
        hold id
        visitContents expression id (.statement body)
  | other => do
      hold id
      visitContents expression id other

theorem visitExpression_succ
    (subquery : NodeId -> Walking Unit)
    (fuel : Nat)
    (id : NodeId) :
    visitExpression subquery (fuel + 1) id =
      read (·.node id) >>= visitNode subquery (visitExpression subquery fuel) id := by
  rw [visitExpression]
  apply bind_congr
  intro node
  cases node <;> rfl

theorem visitExpression_succ_eq_ok
    {subquery : NodeId -> Walking Unit}
    {fuel : Nat}
    {id : NodeId} :
    visitExpression subquery (fuel + 1) id before = .ok () after ↔
      ∃ node, before.tree.node id = .ok node ∧
        visitNode subquery (visitExpression subquery fuel) id node before = .ok () after := by
  rw [visitExpression_succ]
  simp only [Operation.bind_eq_ok, read_eq_ok]
  constructor
  · rintro ⟨node, before, ⟨found, rfl⟩, visited⟩
    exact ⟨node, found, visited⟩
  · rintro ⟨node, found, visited⟩
    exact ⟨node, before, ⟨found, rfl⟩, visited⟩

/-! ## Visiting statements -/

/-- What happens inside an entered statement, given how an expression is visited. -/
def visitBody
    (schema : Schema)
    (expression : NodeId -> Walking Unit)
    (id : NodeId)
    (statement : Statement) : Walking Unit := do
  modify fun walk => { walk with enclosing := id :: walk.enclosing }
  visitSources schema id statement
  (clauses statement.kind).forM (visitClause expression statement)
  modify fun walk => { walk with enclosing := walk.enclosing.tail }

/-- The visit of a statement, given how an expression is visited. -/
def enterStatement
    (schema : Schema)
    (expression : NodeId -> Walking Unit)
    (id : NodeId) : Walking Unit := do
  if id ∈ (← get).enclosing then throw (.recursiveSubquery id)
  hold id
  let statement ← read (·.statement id)
  within (.statement id statement.kind) (visitBody schema expression id statement)

theorem visitStatement_succ
    (schema : Schema)
    (bound fuel : Nat)
    (id : NodeId) :
    visitStatement schema bound (fuel + 1) id =
      enterStatement schema (visitExpression (visitStatement schema bound fuel) bound) id := rfl

theorem visitBody_eq_ok
    {schema : Schema}
    {expression : NodeId -> Walking Unit}
    {id : NodeId}
    {statement : Statement} :
    visitBody schema expression id statement before = .ok () after ↔
      ∃ declared visited,
        visitSources schema id statement (before.opening id) = .ok () declared ∧
        (clauses statement.kind).forM (visitClause expression statement) declared =
          .ok () visited ∧
        after = visited.closing := by
  unfold visitBody
  rw [Operation.bind_of_ok (Operation.modify_apply _ before)]
  simp only [Operation.bind_eq_ok]
  constructor
  · rintro ⟨⟨⟩, declared, sources, ⟨⟩, visited, visits, last⟩
    cases last
    exact ⟨declared, visited, sources, visits, rfl⟩
  · rintro ⟨declared, visited, sources, visits, rfl⟩
    exact ⟨(), declared, sources, (), visited, visits, rfl⟩

theorem enterStatement_eq_ok
    {schema : Schema}
    {expression : NodeId -> Walking Unit}
    {id : NodeId} :
    enterStatement schema expression id before = .ok () after ↔
      id ∉ before.enclosing ∧
        ∃ held statement, hold id before = .ok () held ∧
          held.tree.statement id = .ok statement ∧
          within (.statement id statement.kind) (visitBody schema expression id statement) held =
            .ok () after := by
  unfold enterStatement
  rw [Operation.bind_of_ok (Operation.get_apply before)]
  by_cases isOpen : id ∈ before.enclosing
  · simp only [isOpen, if_true, not_true_eq_false, false_and, iff_false]
    intro done
    cases done
  · simp only [isOpen, if_false, not_false_eq_true, true_and, Operation.bind_eq_ok, read_eq_ok]
    constructor
    · rintro ⟨⟨⟩, _, holds, statement, held, ⟨found, rfl⟩, last⟩
      exact ⟨held, statement, holds, found, last⟩
    · rintro ⟨held, statement, holds, found, last⟩
      exact ⟨(), held, holds, statement, held, ⟨found, rfl⟩, last⟩

theorem visitClause_eq_ok
    {expression : NodeId -> Walking Unit}
    {statement : Statement}
    {clause : Clause} :
    visitClause expression statement clause before = .ok () after ↔
      PathAllocator.pushFault? (.clause clause) before.allocator.peek = none ∧
        ∃ items inside,
          clauseItems statement clause (before.entering (.clause clause)) =
            .ok items (before.entering (.clause clause)) ∧
          items.forM expression (before.entering (.clause clause)) = .ok () inside ∧
          inside.allocator.stack ≠ [] ∧ after = inside.leaving := by
  have readsOnly : ∀ walk items next,
      clauseItems statement clause walk = .ok items next -> next = walk := by
    intro walk items next done
    cases clause with
    | on =>
        obtain ⟨sources, _, found, last⟩ := Operation.bind_eq_ok.mp done
        obtain ⟨-, rfl⟩ := read_eq_ok.mp found
        cases last
        rfl
    | _ =>
        cases done
        rfl
  unfold visitClause
  rw [within_eq_ok]
  apply and_congr_right
  intro _
  simp only [Operation.bind_eq_ok]
  constructor
  · rintro ⟨inside, ⟨items, _, found, visits⟩, nonempty, rfl⟩
    cases readsOnly _ _ _ found
    exact ⟨items, inside, found, visits, nonempty, rfl⟩
  · rintro ⟨items, inside, found, visits, nonempty, rfl⟩
    exact ⟨inside, ⟨items, _, found, visits⟩, nonempty, rfl⟩

end Walking
end QueryGraph
