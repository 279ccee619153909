import QueryGraph.Proofs.Path.Replay

/-!
# The stack of surroundings

Whatever is called, the stack of an allocator is nested: a top-level statement at the bottom, the
clauses directly in statements, and everything else in clauses. A look at the few innermost entries
therefore tells whether the whole stack is that of a path selected by the outermost query.
-/

namespace QueryGraph

namespace StackEntry

/-- Whether an entry is a statement that stands in no other one. -/
def isTopLevel : StackEntry -> Bool
  | .statement _ kind => kind.isTopLevel
  | _ => false

/-- What may stand directly in another entry. -/
inductive StandsIn : StackEntry -> StackEntry -> Prop
  | clause
      (clause : Clause)
      (node : NodeId)
      (kind : StatementKind) :
      StandsIn (.clause clause) (.statement node kind)
  | subquery
      (node : NodeId)
      {outer : StackEntry}
      (inClause : outer.isStatement = false) :
      StandsIn (.statement node .subquery) outer
  | compound
      (node : NodeId)
      {outer : StackEntry}
      (inClause : outer.isStatement = false) :
      StandsIn (.compound node) outer
  | node
      (node : NodeId)
      {outer : StackEntry}
      (inClause : outer.isStatement = false) :
      StandsIn (.node node) outer

/-- Stacks, innermost entry first, that grow from a top-level statement by entries that may stand
in the one before. -/
inductive Nested : List StackEntry -> Prop
  | empty : Nested []
  | bottom
      {entry : StackEntry}
      (topLevel : entry.isTopLevel = true) :
      Nested [entry]
  | inside
      {entry outer : StackEntry}
      {rest : List StackEntry}
      (nested : Nested (outer :: rest))
      (standsIn : StandsIn entry outer) :
      Nested (entry :: outer :: rest)

/-- The places of a stack, innermost entry first, and what stands at them. -/
structure Grammatical (stack : List StackEntry) : Prop where
  /-- A top-level statement is at the bottom. -/
  bottom : ∀ entry, stack.getLast? = some entry -> entry.isTopLevel = true
  /-- There is no other top-level statement. -/
  once : ∀ inner entry outer, stack = inner ++ entry :: outer -> entry.isTopLevel = true ->
    outer = []
  /-- A clause stands on every statement that is not on top. -/
  statement : ∀ inner above node kind outer,
    stack = inner ++ above :: .statement node kind :: outer -> ∃ clause, above = .clause clause
  /-- A statement stands under every clause. -/
  clause : ∀ inner clause outer, stack = inner ++ .clause clause :: outer ->
    ∃ node kind rest, outer = .statement node kind :: rest
  /-- Everything else that is not at the bottom stands on a clause, a compound or a node. -/
  other : ∀ inner entry below outer, stack = inner ++ entry :: below :: outer ->
    (∀ clause, entry ≠ .clause clause) -> below.isStatement = false

variable {entry outer : StackEntry} {inner stack rest : List StackEntry}

theorem StandsIn.not_isTopLevel (standsIn : StandsIn entry outer) : entry.isTopLevel = false := by
  cases standsIn <;> rfl

theorem Nested.tail (nested : Nested (entry :: stack)) : Nested stack := by
  cases nested with
  | bottom => exact .empty
  | inside nested => exact nested

theorem Nested.of_append (nested : Nested (inner ++ stack)) : Nested stack := by
  induction inner with
  | nil => exact nested
  | cons entry inner inductionHypothesis => exact inductionHypothesis nested.tail

/-- Below a top-level statement there is nothing. -/
theorem Nested.eq_nil_of_isTopLevel
    (nested : Nested (entry :: rest))
    (topLevel : entry.isTopLevel = true) :
    rest = [] := by
  cases nested with
  | bottom => rfl
  | inside nested standsIn =>
      rw [standsIn.not_isTopLevel] at topLevel
      cases topLevel

/-- Every place of a nested stack is as the grammar has it. -/
theorem Nested.grammatical (nested : Nested stack) : Grammatical stack where
  bottom entry last := by
    obtain ⟨inner, rfl⟩ := List.getLast?_eq_some_iff.mp last
    cases nested.of_append with
    | bottom topLevel => exact topLevel
  once inner entry outer split topLevel := by
    subst split
    exact nested.of_append.eq_nil_of_isTopLevel topLevel
  statement inner above node kind outer split := by
    subst split
    cases nested.of_append with
    | inside _ standsIn =>
        cases standsIn with
        | clause clause => exact ⟨clause, rfl⟩
        | subquery _ inClause => cases inClause
        | compound _ inClause => cases inClause
        | node _ inClause => cases inClause
  clause inner clause outer split := by
    subst split
    cases nested.of_append with
    | bottom topLevel => cases topLevel
    | inside _ standsIn =>
        cases standsIn with
        | clause _ node kind => exact ⟨node, kind, _, rfl⟩
  other inner entry below outer split differs := by
    subst split
    cases nested.of_append with
    | inside _ standsIn =>
        cases standsIn with
        | clause clause => exact absurd rfl (differs clause)
        | subquery _ inClause => exact inClause
        | compound _ inClause => exact inClause
        | node _ inClause => exact inClause

theorem Grammatical.tail (grammatical : Grammatical (entry :: stack)) : Grammatical stack where
  bottom last found := by
    apply grammatical.bottom last
    rw [List.getLast?_cons, found]
    rfl
  once inner other outer split := grammatical.once (entry :: inner) other outer (by rw [split]; rfl)
  statement inner above node kind outer split :=
    grammatical.statement (entry :: inner) above node kind outer (by rw [split]; rfl)
  clause inner clause outer split :=
    grammatical.clause (entry :: inner) clause outer (by rw [split]; rfl)
  other inner next below outer split :=
    grammatical.other (entry :: inner) next below outer (by rw [split]; rfl)

/-- The grammar of the places describes exactly the nested stacks. -/
theorem grammatical_iff_nested : Grammatical stack ↔ Nested stack := by
  refine ⟨fun grammatical => ?_, Nested.grammatical⟩
  induction stack with
  | nil => exact .empty
  | cons entry stack inductionHypothesis =>
      cases stack with
      | nil => exact .bottom (grammatical.bottom entry rfl)
      | cons outer rest =>
          refine .inside (inductionHypothesis grammatical.tail) ?_
          cases entry with
          | clause clause =>
              obtain ⟨node, kind, _, same⟩ := grammatical.clause [] clause (outer :: rest) rfl
              cases same
              exact .clause clause node kind
          | compound node =>
              exact .compound node (grammatical.other [] _ outer rest rfl (by simp))
          | node node => exact .node node (grammatical.other [] _ outer rest rfl (by simp))
          | statement node kind =>
              cases topLevel : kind.isTopLevel with
              | true => cases grammatical.once [] _ (outer :: rest) rfl topLevel
              | false =>
                  have subquery : kind = .subquery := by
                    cases kind <;> first | rfl | cases topLevel
                  subst subquery
                  exact .subquery node (grammatical.other [] _ outer rest rfl (by simp))

end StackEntry

namespace PathAllocator

open StackEntry (Grammatical Nested)

/-! ## What a call does to the stack -/

section Call

variable {allocator after : PathAllocator} {stack : List StackEntry} {entry : StackEntry}

/-- On a nested stack an entry is welcome exactly when the stack stays nested. -/
theorem pushFault?_eq_none_iff (nested : Nested stack) :
    pushFault? entry stack.head? = none ↔ Nested (entry :: stack) := by
  constructor
  · intro welcome
    match stack, entry with
    | [], .statement _ kind => cases kind <;> first | exact .bottom rfl | cases welcome
    | [], .clause _ | [], .compound _ | [], .node _ => cases welcome
    | .statement node kind :: _, .clause clause => exact .inside nested (.clause clause node kind)
    | .clause _ :: _, .clause _ | .compound _ :: _, .clause _ | .node _ :: _, .clause _ =>
        cases welcome
    | .statement _ _ :: _, .statement _ kind => cases kind <;> cases welcome
    | .statement _ _ :: _, .compound _ | .statement _ _ :: _, .node _ => cases welcome
    | .clause _ :: _, .statement node kind | .compound _ :: _, .statement node kind
    | .node _ :: _, .statement node kind =>
        cases kind <;> first | exact .inside nested (.subquery node rfl) | cases welcome
    | .clause _ :: _, .compound node | .compound _ :: _, .compound node
    | .node _ :: _, .compound node => exact .inside nested (.compound node rfl)
    | .clause _ :: _, .node node | .compound _ :: _, .node node | .node _ :: _, .node node =>
        exact .inside nested (.node node rfl)
  · intro grown
    cases grown with
    | bottom topLevel =>
        cases entry with
        | statement node kind => exact if_pos topLevel
        | _ => cases topLevel
    | inside _ standsIn =>
        cases standsIn with
        | clause => rfl
        | subquery _ inClause => simp [pushFault?, StatementKind.isTopLevel, inClause]
        | compound _ inClause => simp [pushFault?, inClause]
        | node _ inClause => simp [pushFault?, inClause]

theorem exists_push_eq_ok_iff :
    (∃ after, push entry allocator = .ok () after) ↔
      pushFault? entry allocator.stack.head? = none := by
  constructor
  · rintro ⟨after, pushed⟩
    exact (Walking.push_eq_ok.mp pushed).1
  · exact fun welcome => ⟨_, Walking.push_eq_ok.mpr ⟨welcome, rfl⟩⟩

/-- An allocation leaves the stack as it is. Where it succeeds, whatever was expected, the stack
surrounds the path that is allocated. -/
theorem allocate_outcome (allocator : PathAllocator) :
    (∃ error seen, allocate allocator = .error error { allocator with seen := seen }) ∨
    ∃ identity seen mode, identity.stack = allocator.stack ∧
      allocate allocator = .ok identity { allocator with seen := seen, mode := mode } := by
  obtain ⟨stack, seen, mode⟩ := allocator
  match stack, mode with
  | [], _ => exact Or.inl ⟨_, _, rfl⟩
  | .statement _ _ :: _, _ | .clause _ :: _, _ | .compound _ :: _, _ => exact Or.inl ⟨_, _, rfl⟩
  | .node node :: around, .primary allocated => exact Or.inr ⟨_, _, _, rfl, rfl⟩
  | .node node :: around, .replay expected cursor =>
      unfold allocate
      rw [Operation.bind_of_ok (Operation.get_apply _)]
      dsimp only
      rw [Operation.bind_of_ok (Operation.set_apply _ _)]
      cases expected[cursor]? with
      | none => exact Or.inl ⟨_, _, rfl⟩
      | some next =>
          dsimp only
          split
          next same =>
            subst same
            exact Or.inr ⟨_, _, _, rfl, rfl⟩
          next => exact Or.inl ⟨_, _, rfl⟩

/-- A refused entry is not pushed. -/
theorem push_outcome (entry : StackEntry) (allocator : PathAllocator) :
    (∃ error, push entry allocator = .error error allocator) ∨
    pushFault? entry allocator.stack.head? = none ∧
      push entry allocator = .ok () { allocator with stack := entry :: allocator.stack } := by
  unfold push
  rw [Operation.bind_of_ok (Operation.get_apply allocator)]
  cases fault : pushFault? entry allocator.stack.head? with
  | none => exact Or.inr ⟨rfl, by simp [peek, fault]⟩
  | some reason => exact Or.inl ⟨.invalidStackPush entry reason, by simp [peek, fault]⟩

/-- Only the innermost entry is left, if there is one. -/
theorem pop_outcome (allocator : PathAllocator) :
    (∃ error, pop allocator = .error error allocator) ∨
    ∃ top rest, allocator.stack = top :: rest ∧
      pop allocator = .ok top { allocator with stack := rest } := by
  obtain ⟨stack, seen, mode⟩ := allocator
  cases stack with
  | nil => exact Or.inl ⟨_, rfl⟩
  | cons top rest => exact Or.inr ⟨top, rest, rfl, rfl⟩

/-- A call, refused or not, keeps the stack nested. -/
theorem nested_answer
    (call : AllocatorCall)
    (nested : Nested allocator.stack) :
    Nested (Operation.finalState (answer call allocator)).stack := by
  cases call with
  | push entry =>
      rcases push_outcome entry allocator with ⟨error, refused⟩ | ⟨welcome, pushed⟩
      · rw [answer, Operation.bind_of_error refused]
        exact nested
      · rw [answer, Operation.bind_of_ok pushed]
        exact (pushFault?_eq_none_iff nested).mp welcome
  | pop =>
      rcases pop_outcome allocator with ⟨error, refused⟩ | ⟨top, rest, stack, popped⟩
      · rw [answer, Operation.bind_of_error refused]
        exact nested
      · rw [answer, Operation.bind_of_ok popped]
        rw [stack] at nested
        exact nested.tail
  | allocate =>
      rcases allocate_outcome allocator with ⟨error, seen, refused⟩ |
        ⟨identity, seen, mode, -, allocated⟩
      · rw [answer, Operation.bind_of_error refused]
        exact nested
      · rw [answer, Operation.bind_of_ok allocated]
        exact nested

end Call

/-! ## Calls in any order -/

/-- The allocator that is left when calls are made one after another, whether or not they are
refused. -/
def performAll
    (calls : List AllocatorCall)
    (allocator : PathAllocator) : PathAllocator :=
  calls.foldl (fun reached call => Operation.finalState (answer call reached)) allocator

theorem nested_performAll
    {allocator : PathAllocator}
    (calls : List AllocatorCall)
    (nested : Nested allocator.stack) :
    Nested (performAll calls allocator).stack := by
  induction calls generalizing allocator with
  | nil => exact nested
  | cons call calls inductionHypothesis => exact inductionHypothesis (nested_answer call nested)

end PathAllocator

/-! ## Direct selection -/

/-- The path stands in the selection of the outermost query, at most one compound around it. -/
def PathIdentity.StandsInSelection (identity : PathIdentity) : Prop :=
  ∃ (query : NodeId) (compound? : Option NodeId),
    identity.stack.reverse = .statement query .query :: .clause .selection ::
      ((compound?.map StackEntry.compound).toList ++ [.node identity.node])

/-- In nested surroundings the innermost entries tell whether the path stands in the selection of
the outermost query. -/
theorem PathIdentity.isDirectlySelected_iff
    {identity : PathIdentity}
    (nested : StackEntry.Nested identity.stack) :
    identity.isDirectlySelected = true ↔ identity.StandsInSelection := by
  obtain ⟨node, around, position⟩ := identity
  constructor
  · intro selected
    unfold isDirectlySelected at selected
    have nested : StackEntry.Nested around := nested.tail
    split at selected
    next query rest same =>
      dsimp only at same
      subst same
      have nothing := nested.tail.eq_nil_of_isTopLevel rfl
      subst nothing
      exact ⟨query, none, rfl⟩
    next compound query rest same =>
      dsimp only at same
      subst same
      have nothing := nested.tail.tail.eq_nil_of_isTopLevel rfl
      subst nothing
      exact ⟨query, some compound, rfl⟩
    · cases selected
  · rintro ⟨query, compound?, shape⟩
    have stack := congrArg List.reverse shape
    rw [List.reverse_reverse] at stack
    cases compound? with
    | none =>
        have surroundings : around = [.clause .selection, .statement query .query] := by
          simpa [PathIdentity.stack] using stack
        subst surroundings
        rfl
    | some compound =>
        have surroundings : around =
            [.compound compound, .clause .selection, .statement query .query] := by
          simpa [PathIdentity.stack] using stack
        subst surroundings
        rfl

namespace PathAllocator

open StackEntry (Grammatical Nested)

/-- Whatever was called before, the stack of an allocator is as the grammar has it, an entry is
pushed exactly when it stays so, and an identity is directly selected exactly when its path stands
in the selection of the outermost query. -/
theorem performAll_grammatical
    (mode : AllocatorMode)
    (calls : List AllocatorCall) :
    Grammatical (performAll calls { mode := mode }).stack ∧
    (∀ entry, (∃ after, push entry (performAll calls { mode := mode }) = .ok () after) ↔
      Grammatical (entry :: (performAll calls { mode := mode }).stack)) ∧
    ∀ identity after, allocate (performAll calls { mode := mode }) = .ok identity after ->
      identity.stack = (performAll calls { mode := mode }).stack ∧
      (identity.isDirectlySelected = true ↔ identity.StandsInSelection) := by
  have nested : Nested (performAll calls { mode := mode }).stack :=
    nested_performAll calls .empty
  refine ⟨nested.grammatical, ?_, ?_⟩
  · intro entry
    rw [exists_push_eq_ok_iff, pushFault?_eq_none_iff nested, StackEntry.grammatical_iff_nested]
  · intro identity after allocated
    have around : identity.stack = (performAll calls { mode := mode }).stack := by
      rcases allocate_outcome (performAll calls { mode := mode }) with ⟨_, _, refused⟩ |
        ⟨_, _, _, around, done⟩
      · rw [refused] at allocated
        cases allocated
      · rw [done] at allocated
        cases allocated
        exact around
    refine ⟨around, PathIdentity.isDirectlySelected_iff ?_⟩
    rw [around]
    exact nested

/-- A path inside a compound that a query selects is directly selected, and refused entries before
it make no difference. -/
theorem selectedCompound_grammatical :
    ∃ identity after,
      allocate (performAll
        [.push (.clause .selection), .push (.statement ⟨0⟩ .query), .push (.clause .selection),
          .push (.statement ⟨1⟩ .query), .push (.compound ⟨7⟩), .push (.node ⟨5⟩)]
        { mode := .primary [] }) = .ok identity after ∧
      identity.isDirectlySelected = true ∧ identity.StandsInSelection := by
  have grammatical := performAll_grammatical (.primary [])
    [.push (.clause .selection), .push (.statement ⟨0⟩ .query), .push (.clause .selection),
      .push (.statement ⟨1⟩ .query), .push (.compound ⟨7⟩), .push (.node ⟨5⟩)]
  refine ⟨_, _, rfl, rfl, ?_⟩
  exact (grammatical.2.2 _ _ rfl).2.mp rfl

end PathAllocator
end QueryGraph
