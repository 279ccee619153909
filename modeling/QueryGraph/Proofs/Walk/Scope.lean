import QueryGraph.Proofs.Walk.Declaration
import QueryGraph.Proofs.Walk.Steps

/-!
# Where paths occur

While a statement is open, it is on the path stack and its sources are declared. The
source that a path hangs off therefore belongs to a statement around every occurrence of
the path.

The same path may be met again in the same surroundings, when the subquery around it is shared.
A recording allocator tells the occurrences apart, because each is numbered by those of the same
path before it.
-/

namespace QueryGraph

/-! ## Numbered occurrences -/

namespace PathIdentity

/-- The occurrences of a path, in order. -/
def occurrences
    (node : NodeId)
    (identities : List PathIdentity) : List PathIdentity :=
  identities.filter fun identity => identity.node = node

theorem occurrences_append
    (node : NodeId)
    (first second : List PathIdentity) :
    occurrences node (first ++ second) = occurrences node first ++ occurrences node second :=
  List.filter_append first second

theorem length_occurrences
    (node : NodeId)
    (identities : List PathIdentity) :
    (occurrences node identities).length = (identities.map PathIdentity.node).count node := by
  unfold occurrences
  rw [List.count, List.countP_map, List.countP_eq_length_filter]
  rfl

/-- Occurrences in order, each of which tells how many of the same path are before it. -/
inductive Numbered : List PathIdentity -> Prop
  | nil : Numbered []
  | snoc
      {earlier : List PathIdentity}
      {identity : PathIdentity}
      (numbered : Numbered earlier)
      (position : identity.position = (occurrences identity.node earlier).length) :
      Numbered (earlier ++ [identity])

namespace Numbered

variable {identities : List PathIdentity}

theorem position_lt
    {identity : PathIdentity}
    (numbered : Numbered identities)
    (member : identity ∈ identities) :
    identity.position < (occurrences identity.node identities).length := by
  induction numbered with
  | nil => cases member
  | snoc numbered position inductionHypothesis =>
      rw [occurrences_append, List.length_append]
      rcases List.mem_append.mp member with old | new
      · exact Nat.lt_add_right _ (inductionHypothesis old)
      · rw [List.mem_singleton.mp new, position]
        simp [occurrences]

/-- No occurrence has the identity of another one. -/
theorem nodup (numbered : Numbered identities) : identities.Nodup := by
  induction numbered with
  | nil => exact List.nodup_nil
  | snoc numbered position inductionHypothesis =>
      refine List.nodup_append.mpr ⟨inductionHypothesis, by simp, ?_⟩
      rintro other old _ last rfl
      have before := numbered.position_lt old
      rw [List.mem_singleton.mp last, position] at before
      exact Nat.lt_irrefl _ before

/-- The occurrences of a path count from zero. -/
theorem positions
    (numbered : Numbered identities)
    (node : NodeId) :
    (occurrences node identities).map PathIdentity.position =
      List.range (occurrences node identities).length := by
  induction numbered with
  | nil => rfl
  | @snoc earlier identity numbered position inductionHypothesis =>
      rw [occurrences_append, List.map_append, List.length_append, inductionHypothesis]
      by_cases same : identity.node = node
      · have last : occurrences node [identity] = [identity] := by simp [occurrences, same]
        rw [last, List.length_singleton, List.range_succ, List.map_singleton, position, same]
      · have last : occurrences node [identity] = [] := by simp [occurrences, same]
        rw [last, List.map_nil, List.append_nil]
        rfl

end Numbered
end PathIdentity

/-- An allocator that has recorded numbered occurrences. -/
structure PathAllocator.Numbers (allocator : PathAllocator) : Prop where
  primary : allocator.mode = .primary allocator.identities
  seen : allocator.seen = (allocator.identities.map PathIdentity.node).reverse
  numbered : PathIdentity.Numbered allocator.identities

namespace PathAllocator.Numbers

variable {before after : PathAllocator}

theorem start : PathAllocator.primary.Numbers := ⟨rfl, rfl, .nil⟩

theorem withStack
    (numbers : before.Numbers)
    (stack : List StackEntry) :
    PathAllocator.Numbers { before with stack := stack } :=
  ⟨numbers.primary, numbers.seen, numbers.numbered⟩

/-- What is allocated is recorded as the last occurrence. -/
theorem allocate
    {identity : PathIdentity}
    (numbers : before.Numbers)
    (allocated : PathAllocator.allocate before = .ok identity after) :
    after.Numbers ∧ after.identities = before.identities ++ [identity] ∧
      before.stack = identity.stack ∧ after.stack = before.stack := by
  obtain ⟨node, around, stack, same, rfl⟩ :=
    (Walking.allocate_eq_ok numbers.primary).mp allocated
  have position : identity.position =
      (PathIdentity.occurrences identity.node before.identities).length := by
    rw [PathIdentity.length_occurrences, ← List.count_reverse, ← numbers.seen, same]
  refine ⟨⟨rfl, ?_, .snoc numbers.numbered position⟩, rfl, ?_, rfl⟩
  · change node :: before.seen = ((before.identities ++ [identity]).map PathIdentity.node).reverse
    rw [List.map_append, List.reverse_append, ← numbers.seen, same]
    rfl
  · rw [stack, same]
    rfl

end PathAllocator.Numbers

/-! ## Statements around an occurrence -/

/-- The statement that an entry of a path stack enters. -/
def StackEntry.statement? : StackEntry -> Option NodeId
  | .statement id _ => some id
  | _ => none

/-- The statements around an occurrence, innermost first. -/
def PathIdentity.statements (identity : PathIdentity) : List NodeId :=
  identity.around.filterMap StackEntry.statement?

namespace Walk

/-- The statements on the path stack, innermost first. -/
def statements (walk : Walk) : List NodeId :=
  walk.allocator.stack.filterMap StackEntry.statement?

/-- The open statements are on the stack and entered, and so was the statement of every
path that was recorded. -/
structure Situated
    (tree : Tree)
    (walk : Walk) : Prop where
  nodes : walk.tree.nodes = tree.nodes
  numbers : walk.allocator.Numbers
  onStack : walk.enclosing ⊆ walk.statements
  entered : walk.enclosing ⊆ walk.entered
  inScope : ∀ identity ∈ walk.allocator.identities, ∃ chain,
    tree.pathChain identity.node = .ok chain ∧
      chain.source.statement ∈ identity.statements ∧ chain.source.statement ∈ walk.entered

/-! ## Steps that occur nowhere -/

/-- A step that leaves the stack, the open statements and the recorded occurrences. -/
structure Stays (before after : Walk) : Prop where
  nodes : after.tree.nodes = before.tree.nodes
  allocator : after.allocator = before.allocator
  enclosing : after.enclosing = before.enclosing
  entered : before.entered ⊆ after.entered

namespace Stays

theorem refl (walk : Walk) : walk.Stays walk where
  nodes := rfl
  allocator := rfl
  enclosing := rfl
  entered := List.Subset.refl _

theorem trans
    {first second third : Walk}
    (earlier : first.Stays second)
    (later : second.Stays third) :
    first.Stays third where
  nodes := later.nodes.trans earlier.nodes
  allocator := later.allocator.trans earlier.allocator
  enclosing := later.enclosing.trans earlier.enclosing
  entered := List.Subset.trans earlier.entered later.entered

end Stays

/-! ## Steps that return to where they began -/

/-- A step that ends where it began, and keeps occurrences in scope. -/
structure Abides
    (tree : Tree)
    (before after : Walk) : Prop where
  stack : after.allocator.stack = before.allocator.stack
  enclosing : after.enclosing = before.enclosing
  entered : before.entered ⊆ after.entered
  situated : before.Situated tree -> after.Situated tree

namespace Abides

variable {tree : Tree}

theorem of_stays
    {before after : Walk}
    (stays : before.Stays after) :
    before.Abides tree after where
  stack := by rw [stays.allocator]
  enclosing := stays.enclosing
  entered := stays.entered
  situated situated := by
    have sameStatements : after.statements = before.statements := by
      unfold Walk.statements
      rw [stays.allocator]
    refine ⟨stays.nodes.trans situated.nodes, ?_, ?_, ?_, ?_⟩
    · rw [stays.allocator]
      exact situated.numbers
    · rw [stays.enclosing, sameStatements]
      exact situated.onStack
    · rw [stays.enclosing]
      exact List.Subset.trans situated.entered stays.entered
    · intro identity member
      rw [stays.allocator] at member
      obtain ⟨chain, found, around, entered⟩ := situated.inScope identity member
      exact ⟨chain, found, around, stays.entered entered⟩

theorem trans
    {first second third : Walk}
    (earlier : first.Abides tree second)
    (later : second.Abides tree third) :
    first.Abides tree third where
  stack := later.stack.trans earlier.stack
  enclosing := later.enclosing.trans earlier.enclosing
  entered := List.Subset.trans earlier.entered later.entered
  situated situated := later.situated (earlier.situated situated)

end Abides

namespace Situated

variable {tree : Tree} {walk : Walk}

/-- Entering an entry of the stack leaves all statements on it. -/
theorem entering
    (entry : StackEntry)
    (situated : walk.Situated tree) :
    (walk.entering entry).Situated tree where
  nodes := situated.nodes
  numbers := situated.numbers.withStack _
  onStack := by
    apply List.Subset.trans situated.onStack
    intro id member
    obtain ⟨other, otherMember, enters⟩ := List.mem_filterMap.mp member
    exact List.mem_filterMap.mpr ⟨other, List.mem_cons_of_mem entry otherMember, enters⟩
  entered := situated.entered
  inScope := situated.inScope

/-- The innermost entry may be left once no statement that it enters is open. -/
theorem leaving
    (situated : walk.Situated tree)
    (onStack : walk.enclosing ⊆ walk.leaving.statements) :
    walk.leaving.Situated tree where
  nodes := situated.nodes
  numbers := situated.numbers.withStack _
  onStack := onStack
  entered := situated.entered
  inScope := situated.inScope

/-- The innermost statement may be closed. -/
theorem closing
    (situated : walk.Situated tree) :
    walk.closing.Situated tree where
  nodes := situated.nodes
  numbers := situated.numbers
  onStack := List.Subset.trans (List.tail_sublist _).subset situated.onStack
  entered := List.Subset.trans (List.tail_sublist _).subset situated.entered
  inScope := situated.inScope

end Situated

/-- What happens inside an entry of the stack ends where it began once the entry is left. -/
theorem Abides.around
    {tree : Tree}
    {entry : StackEntry}
    {before inside : Walk}
    (abides : (before.entering entry).Abides tree inside) :
    before.Abides tree inside.leaving := by
  have stack : inside.leaving.allocator.stack = before.allocator.stack := by
    change inside.allocator.stack.tail = _
    rw [abides.stack]
    rfl
  refine ⟨stack, abides.enclosing, abides.entered, fun situated => ?_⟩
  apply (abides.situated (situated.entering entry)).leaving
  have same : inside.leaving.statements = before.statements := by
    unfold Walk.statements
    rw [stack]
  rw [same, abides.enclosing]
  exact situated.onStack

end Walk

namespace Walking

variable {schema : Schema} {tree : Tree} {before after : Walk}

theorem stays_lawful : (succeeding Walk.Stays).Lawful :=
  succeeding_lawful Walk.Stays.refl Walk.Stays.trans

theorem stays_of_hold
    {id : NodeId}
    (done : hold id before = .ok () after) :
    before.Stays after := by
  have nodes := (tallies_of_hold done).nodes
  obtain ⟨taken, -, rfl⟩ := hold_eq_ok.mp done
  exact ⟨nodes, rfl, rfl, List.Subset.refl _⟩

theorem stays_of_holdAll
    {ids : List NodeId}
    (done : holdAll ids before = .ok () after) :
    before.Stays after :=
  (Obeys.forM stays_lawful fun _ _ => obeys_succeeding stays_of_hold).of_ok done

theorem stays_of_visitRoot
    {isFirst : Bool}
    {root : NodeId}
    {vertices : List VertexId}
    (done : visitRoot schema isFirst root before = .ok vertices after) :
    before.Stays after := by
  obtain ⟨source, held, -, holds, last⟩ := visitRoot_eq_ok.mp done
  apply (stays_of_holdAll holds).trans
  rcases last with ⟨-, -, rfl⟩ | ⟨-, vertex, sources, -, -, rfl⟩
  · exact .refl _
  · exact ⟨rfl, rfl, rfl, List.Subset.refl _⟩

theorem stays_of_visitCorrelation
    {statement correlated : NodeId}
    (done : visitCorrelation statement correlated before = .ok () after) :
    before.Stays after := by
  obtain ⟨held, outer, vertex, holds, -, -, rfl⟩ := visitCorrelation_eq_ok.mp done
  exact (stays_of_hold holds).trans ⟨rfl, rfl, rfl, List.Subset.refl _⟩

theorem isFirstVisit_eq_false
    {walk : Walk}
    {id : NodeId} :
    isFirstVisit walk id = false ↔ id ∈ walk.entered := by
  simp [isFirstVisit, Walk.entered]

/-- A statement whose sources were visited counts as entered. -/
theorem stays_of_visitSources
    {id : NodeId}
    {statement : Statement}
    (done : visitSources schema id statement before = .ok () after) :
    before.Stays after ∧ id ∈ after.entered := by
  obtain ⟨-, roots, built, correlated, rootsDone, correlationsDone, rfl⟩ :=
    visitSources_eq_ok.mp done
  have staysRoots : before.Stays built :=
    (Obeys.mapM stays_lawful fun _ _ => obeys_succeeding stays_of_visitRoot).of_ok rootsDone
  have staysCorrelations : built.Stays correlated :=
    (Obeys.forM stays_lawful fun _ _ =>
      obeys_succeeding stays_of_visitCorrelation).of_ok correlationsDone
  have stays := staysRoots.trans staysCorrelations
  cases first : isFirstVisit before id with
  | false =>
      rw [if_neg Bool.false_ne_true]
      exact ⟨stays, stays.entered (isFirstVisit_eq_false.mp first)⟩
  | true =>
      rw [if_pos rfl]
      refine ⟨stays.trans ⟨rfl, rfl, rfl, fun other member => ?_⟩, ?_⟩
      · simp only [Walk.entered, List.map_append, List.mem_append]
        exact Or.inl member
      · simp [Walk.entered]

/-! ## Occurrences -/

/-- The bond of a walk that returns to where it began. -/
def abiding (tree : Tree) : Bond := succeeding (Walk.Abides tree)

theorem abiding_lawful (tree : Tree) : (abiding tree).Lawful :=
  succeeding_lawful (fun walk => .of_stays (.refl walk)) Walk.Abides.trans

theorem abiding_within
    {entry : StackEntry}
    {step : Walking Unit}
    (stepObeys : Obeys (abiding tree) step) :
    Obeys (abiding tree) (within entry step) := by
  refine obeys_succeeding fun {walk value next} done => ?_
  obtain ⟨-, inside, stepDone, -, rfl⟩ := within_eq_ok.mp done
  exact (stepObeys.of_ok stepDone).around

theorem stack_of_allocate
    {before after : PathAllocator}
    {identity : PathIdentity}
    (done : PathAllocator.allocate before = .ok identity after) :
    after.stack = before.stack := by
  obtain ⟨stack, seen, mode⟩ := before
  unfold PathAllocator.allocate at done
  rw [Operation.bind_of_ok (Operation.get_apply _)] at done
  match stack, mode with
  | [], _ => cases done
  | .statement _ _ :: _, _ => cases done
  | .clause _ :: _, _ => cases done
  | .compound _ :: _, _ => cases done
  | .node node :: around, .primary allocated =>
      cases done
      rfl
  | .node node :: around, .replay expected cursor =>
      simp only at done
      rw [Operation.bind_of_ok (Operation.set_apply _ _)] at done
      cases next : expected[cursor]? with
      | none =>
          simp only [next] at done
          cases done
      | some following =>
          simp only [next] at done
          split at done
          · cases done
            rfl
          · cases done

/-- An occurrence may be recorded where the statement of its source is open. -/
theorem situated_of_allocate
    {walk : Walk}
    {id : NodeId}
    {around : List StackEntry}
    {chain : PathChain}
    {identity : PathIdentity}
    {allocator : PathAllocator}
    (situated : walk.Situated tree)
    (stack : walk.allocator.stack = .node id :: around)
    (found : tree.pathChain id = .ok chain)
    (isOpen : chain.source.statement ∈ walk.enclosing)
    (allocated : PathAllocator.allocate walk.allocator = .ok identity allocator) :
    Walk.Situated tree { walk with allocator := allocator } := by
  obtain ⟨numbers, identities, sameStack, -⟩ := situated.numbers.allocate allocated
  rw [stack] at sameStack
  obtain ⟨sameNode, sameAround⟩ := List.cons.inj sameStack
  cases sameNode
  refine ⟨situated.nodes, numbers, ?_, situated.entered, fun other member => ?_⟩
  · unfold Walk.statements
    rw [stack_of_allocate allocated]
    exact situated.onStack
  · change other ∈ allocator.identities at member
    rw [identities] at member
    rcases List.mem_append.mp member with old | new
    · exact situated.inScope other old
    · rw [List.mem_singleton.mp new]
      refine ⟨chain, found, ?_, situated.entered isOpen⟩
      have onStack := situated.onStack isOpen
      unfold Walk.statements at onStack
      rw [stack, sameAround] at onStack
      exact onStack

/-- A path is recorded only where the statement of its source is open. -/
theorem abides_of_visitPath
    {id : NodeId}
    (done : visitPath id before = .ok () after) :
    before.Abides tree after := by
  obtain ⟨-, chain, held, identity, allocator, read, holds, isOpen, allocated, -, rfl⟩ :=
    visitPath_eq_ok.mp done
  have stays := stays_of_holdAll holds
  have abidesHeld : (before.entering (.node id)).Abides tree held := .of_stays stays
  have inside : (before.entering (.node id)).Abides tree { held with allocator := allocator } := by
    refine ⟨?_, abidesHeld.enclosing, abidesHeld.entered, fun situated => ?_⟩
    · rw [← abidesHeld.stack]
      exact stack_of_allocate allocated
    · have situatedHeld := abidesHeld.situated situated
      have evolves : before.tree.Evolves tree :=
        (Tree.Matches.of_nodes situated.nodes.symm []).evolves
      obtain ⟨source, sameStatement, readHere⟩ := evolves.pathChain read
      rw [← sameStatement] at isOpen
      exact situated_of_allocate situatedHeld abidesHeld.stack readHere isOpen allocated
  exact inside.around

theorem abiding_expressive (tree : Tree) : (abiding tree).Expressive where
  lawful := abiding_lawful tree
  hold _ := obeys_succeeding fun done => .of_stays (stays_of_hold done)
  path _ := obeys_succeeding abides_of_visitPath
  parameter id name := by
    refine abiding_within (obeys_succeeding fun {walk value next} done => ?_)
    cases name with
    | some name =>
        obtain ⟨parameters, -, rfl⟩ := onParameters_eq_ok.mp done
        exact .of_stays ⟨rfl, rfl, rfl, List.Subset.refl _⟩
    | none =>
        obtain ⟨position, between, registered, last⟩ := Operation.bind_eq_ok.mp done
        obtain ⟨parameters, -, rfl⟩ := onParameters_eq_ok.mp registered
        cases last
        exact .of_stays ⟨rfl, rfl, rfl, List.Subset.refl _⟩
  literal id value := by
    refine abiding_within (obeys_succeeding fun {walk value next} done => ?_)
    cases done
    exact .of_stays ⟨rfl, rfl, rfl, List.Subset.refl _⟩
  within _ _ _ _ stepObeys := abiding_within stepObeys

/-! ## Statements -/

theorem abides_of_visitClause
    {expression : NodeId -> Walking Unit}
    {statement : Statement}
    {clause : Clause}
    (expressionObeys : ∀ id, Obeys (abiding tree) (expression id))
    (done : visitClause expression statement clause before = .ok () after) :
    before.Abides tree after := by
  obtain ⟨-, items, inside, -, itemsDone, -, rfl⟩ := visitClause_eq_ok.mp done
  exact Walk.Abides.around ((Obeys.forM (abiding_lawful tree) fun item _ =>
    expressionObeys item).of_ok itemsDone)

/-- Opening a statement and declaring its sources leaves the walk where the statement is. -/
theorem situated_of_opening
    {id : NodeId}
    {statement : Statement}
    (situated : (before.entering (.statement id statement.kind)).Situated tree)
    (done : visitSources schema id statement
      ((before.entering (.statement id statement.kind)).opening id) = .ok () after) :
    after.Situated tree := by
  obtain ⟨stays, entered⟩ := stays_of_visitSources done
  refine ⟨stays.nodes.trans situated.nodes, ?_, ?_, ?_, ?_⟩
  · rw [stays.allocator]
    exact situated.numbers
  · unfold Walk.statements
    rw [stays.allocator, stays.enclosing]
    exact List.cons_subset.mpr ⟨List.mem_filterMap.mpr ⟨_, List.mem_cons_self, rfl⟩,
      situated.onStack⟩
  · rw [stays.enclosing]
    exact List.cons_subset.mpr ⟨entered, List.Subset.trans situated.entered stays.entered⟩
  · intro identity member
    rw [stays.allocator] at member
    obtain ⟨chain, found, around, older⟩ := situated.inScope identity member
    exact ⟨chain, found, around, stays.entered older⟩

theorem abides_of_enterStatement
    {expression : NodeId -> Walking Unit}
    {id : NodeId}
    (expressionObeys : ∀ id, Obeys (abiding tree) (expression id))
    (done : enterStatement schema expression id before = .ok () after) :
    before.Abides tree after := by
  obtain ⟨-, held, statement, holds, -, inside⟩ := enterStatement_eq_ok.mp done
  have abidesHeld : before.Abides tree held := .of_stays (stays_of_hold holds)
  apply abidesHeld.trans
  obtain ⟨-, left, body, -, rfl⟩ := within_eq_ok.mp inside
  obtain ⟨declared, visited, sources, visits, rfl⟩ := visitBody_eq_ok.mp body
  obtain ⟨stays, -⟩ := stays_of_visitSources sources
  have clausesAbide : declared.Abides tree visited :=
    (Obeys.forM (abiding_lawful tree) fun clause _ =>
      obeys_succeeding (abides_of_visitClause expressionObeys)).of_ok visits
  have bodyAbides :
      (held.entering (.statement id statement.kind)).Abides tree visited.closing := by
    refine ⟨?_, ?_, List.Subset.trans stays.entered clausesAbide.entered, fun situated => ?_⟩
    · change visited.allocator.stack = _
      rw [clausesAbide.stack, stays.allocator]
      rfl
    · change visited.enclosing.tail = _
      rw [clausesAbide.enclosing, stays.enclosing]
      rfl
    · exact (clausesAbide.situated (situated_of_opening situated sources)).closing
  exact bodyAbides.around

theorem abiding_complete
    (schema : Schema)
    (tree : Tree) :
    (abiding tree).Complete schema where
  toExpressive := abiding_expressive tree
  statement expressionObeys := obeys_succeeding (abides_of_enterStatement expressionObeys)

theorem situated_of_walkTree
    {owner : Owner}
    (done : walkTree schema { tree := tree, guard := { owner := owner } } = .ok () after) :
    after.Situated tree := by
  have abides : Walk.Abides tree _ after :=
    (obeys_walkTree (abiding_complete schema tree)).of_ok done
  have started : Walk.Situated tree { tree := tree, guard := { owner := owner } } :=
    ⟨rfl, .start, List.nil_subset _, List.nil_subset _, fun other contrary => by cases contrary⟩
  exact abides.situated started

/-- The source of every recorded path belongs to a statement that is around the occurrence
and was entered. -/
theorem inScope_of_walkTree
    {owner : Owner}
    (done : walkTree schema { tree := tree, guard := { owner := owner } } = .ok () after)
    (identity : PathIdentity)
    (member : identity ∈ after.allocator.identities) :
    ∃ chain, tree.pathChain identity.node = .ok chain ∧
      chain.source.statement ∈ identity.statements ∧ chain.source.statement ∈ after.entered :=
  (situated_of_walkTree done).inScope identity member

end Walking
end QueryGraph
