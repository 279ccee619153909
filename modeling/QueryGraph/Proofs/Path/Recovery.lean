import QueryGraph.Proofs.Path.Stack

/-!
# What a refused call leaves

A refused call leaves the surroundings and the identities of an allocator as they are. Only a
replaying allocator that refuses a path has counted it nevertheless. Where nothing more is expected
the count makes no difference to later calls. Where another identity was expected it does: the path
is one occurrence ahead from then on, and can never be replayed again.
-/

namespace QueryGraph
namespace PathAllocator

/-! ## Verdicts on calls -/

/-- What a call is answered, or why it is refused. -/
def verdict
    (call : AllocatorCall)
    (allocator : PathAllocator) : Except CompileError AllocatorAnswer :=
  match answer call allocator with
  | .ok reply _ => .ok reply
  | .error error _ => .error error

/-- The verdicts on calls that are made one after another, whether or not they are refused. -/
def verdicts : List AllocatorCall -> PathAllocator -> List (Except CompileError AllocatorAnswer)
  | [], _ => []
  | call :: calls, allocator =>
      verdict call allocator ::
        verdicts calls (Operation.finalState (answer call allocator))

/-- Allocators that no calls tell apart. -/
def AnswersLike (first second : PathAllocator) : Prop :=
  ∀ calls, verdicts calls first = verdicts calls second

section Call

variable {allocator after left first second : PathAllocator} {call : AllocatorCall}
  {reply : AllocatorAnswer} {error : CompileError} {node : NodeId} {around : List StackEntry}
  {expected : List PathIdentity} {cursor : Nat}

theorem verdict_of_ok (answered : answer call allocator = .ok reply after) :
    verdict call allocator = .ok reply := by
  rw [verdict, answered]

theorem verdict_of_error (refused : answer call allocator = .error error left) :
    verdict call allocator = .error error := by
  rw [verdict, refused]

/-! ## Allocations -/

/-- Why there is no path to allocate on top of a stack. -/
def noPath? : List StackEntry -> Option CompileError
  | [] => some .emptyPathStack
  | .node _ :: _ => none
  | other :: _ => some (.notAPath other)

theorem noPath?_eq_none_iff {stack : List StackEntry} :
    noPath? stack = none ↔ ∃ node around, stack = .node node :: around := by
  match stack with
  | [] => simp [noPath?]
  | .node node :: around => simp [noPath?]
  | .statement _ _ :: _ | .clause _ :: _ | .compound _ :: _ => simp [noPath?]

theorem ne_mismatch_of_noPath
    {stack : List StackEntry}
    (noPath : noPath? stack = some error)
    (expected found : PathIdentity) :
    error ≠ .pathIdentityMismatch expected found := by
  match stack with
  | [] | .statement _ _ :: _ | .clause _ :: _ | .compound _ :: _ =>
      cases noPath
      simp

/-- Without a path on top of the stack an allocation changes nothing. -/
theorem allocate_of_noPath (noPath : noPath? allocator.stack = some error) :
    allocate allocator = .error error allocator := by
  obtain ⟨stack, seen, mode⟩ := allocator
  match stack with
  | [] | .statement _ _ :: _ | .clause _ :: _ | .compound _ :: _ =>
      cases noPath
      rfl

/-- The identity that a path on top of the stack would have. -/
def candidate
    (allocator : PathAllocator)
    (node : NodeId)
    (around : List StackEntry) : PathIdentity :=
  ⟨node, around, allocator.seen.count node⟩

/-- An allocator that has met a path once more. -/
def counting
    (allocator : PathAllocator)
    (node : NodeId) : PathAllocator :=
  { allocator with seen := node :: allocator.seen }

/-- A recording allocator counts the path and records it. -/
theorem allocate_of_primary
    {allocated : List PathIdentity}
    (stack : allocator.stack = .node node :: around)
    (mode : allocator.mode = .primary allocated) :
    allocate allocator = .ok (allocator.candidate node around)
      { allocator.counting node with
        mode := .primary (allocated ++ [allocator.candidate node around]) } := by
  obtain ⟨_, seen, _⟩ := allocator
  cases stack
  cases mode
  rfl

/-- A replaying allocator counts the path and compares its identity with the next one expected. -/
theorem allocate_of_replay
    (stack : allocator.stack = .node node :: around)
    (mode : allocator.mode = .replay expected cursor) :
    allocate allocator =
      match expected[cursor]? with
      | none => .error (.pathIdentityOverflow expected.length) (allocator.counting node)
      | some next =>
          if next = allocator.candidate node around then
            .ok next { allocator.counting node with mode := .replay expected (cursor + 1) }
          else
            .error (.pathIdentityMismatch next (allocator.candidate node around))
              (allocator.counting node) := by
  obtain ⟨_, seen, _⟩ := allocator
  cases stack
  cases mode
  unfold allocate
  rw [Operation.bind_of_ok (Operation.get_apply _)]
  dsimp only
  rw [Operation.bind_of_ok (Operation.set_apply _ _)]
  cases expected[cursor]? with
  | none => rfl
  | some next =>
      dsimp only
      by_cases met : next = ⟨node, around, seen.count node⟩
      · rw [if_pos met]
        exact (if_pos met).symm
      · rw [if_neg met]
        exact (if_neg met).symm

/-! ## Refused calls -/

/-- What a refused call leaves of an allocator. -/
inductive Refusal
    (allocator : PathAllocator) : AllocatorCall -> CompileError -> PathAllocator -> Prop
  | unchanged
      {call : AllocatorCall}
      {error : CompileError}
      (other : ∀ expected found, error ≠ .pathIdentityMismatch expected found) :
      Refusal allocator call error allocator
  /-- Nothing more is expected. -/
  | overflow
      {node : NodeId}
      {around : List StackEntry}
      {expected : List PathIdentity}
      {cursor : Nat}
      (stack : allocator.stack = .node node :: around)
      (mode : allocator.mode = .replay expected cursor)
      (nothing : expected[cursor]? = none) :
      Refusal allocator .allocate (.pathIdentityOverflow expected.length)
        (allocator.counting node)
  /-- Another identity is expected. -/
  | mismatch
      {node : NodeId}
      {around : List StackEntry}
      {expected : List PathIdentity}
      {cursor : Nat}
      {next : PathIdentity}
      (stack : allocator.stack = .node node :: around)
      (mode : allocator.mode = .replay expected cursor)
      (another : expected[cursor]? = some next)
      (differs : next ≠ allocator.candidate node around) :
      Refusal allocator .allocate
        (.pathIdentityMismatch next (allocator.candidate node around))
        (allocator.counting node)

theorem answer_allocate_eq_error :
    answer .allocate allocator = .error error left ↔ allocate allocator = .error error left := by
  rw [answer, Operation.bind_apply]
  cases allocate allocator with
  | ok identity after => simp
  | error reason unchanged => simp

/-- Calls other than allocations are answered alike in the same surroundings, and change only
these. -/
theorem answer_of_same_stack
    (silent : call ≠ .allocate)
    (same : first.stack = second.stack) :
    (∃ error, answer call first = .error error first ∧
        answer call second = .error error second ∧
        ∀ expected found, error ≠ .pathIdentityMismatch expected found) ∨
      ∃ reply stack, reply.identity? = none ∧
        answer call first = .ok reply { first with stack := stack } ∧
        answer call second = .ok reply { second with stack := stack } := by
  obtain ⟨stack, firstSeen, firstMode⟩ := first
  obtain ⟨_, secondSeen, secondMode⟩ := second
  cases same
  cases call with
  | push entry =>
      cases fault : pushFault? entry stack.head? with
      | none =>
          refine Or.inr ⟨.pushed, entry :: stack, rfl, ?_, ?_⟩ <;>
            exact answer_push_eq_ok.mpr ⟨rfl, Walking.push_eq_ok.mpr ⟨fault, rfl⟩⟩
      | some reason =>
          refine Or.inl ⟨.invalidStackPush entry reason, ?_, ?_, by simp⟩ <;>
            exact Operation.bind_of_error (by simp [push, Operation.bind_apply, peek, fault])
  | pop =>
      cases stack with
      | nil => exact Or.inl ⟨.emptyPathStack, rfl, rfl, by simp⟩
      | cons top rest => exact Or.inr ⟨.popped top, rest, rfl, rfl, rfl⟩
  | allocate => exact absurd rfl silent

theorem refusal_of_answer (refused : answer call allocator = .error error left) :
    allocator.Refusal call error left := by
  by_cases silent : call = .allocate
  · subst silent
    rw [answer_allocate_eq_error] at refused
    cases noPath : noPath? allocator.stack with
    | some reason =>
        rw [allocate_of_noPath noPath] at refused
        cases refused
        exact .unchanged (ne_mismatch_of_noPath noPath)
    | none =>
        obtain ⟨node, around, stack⟩ := noPath?_eq_none_iff.mp noPath
        cases mode : allocator.mode with
        | primary allocated =>
            rw [allocate_of_primary stack mode] at refused
            cases refused
        | replay expected cursor =>
            rw [allocate_of_replay stack mode] at refused
            cases next : expected[cursor]? with
            | none =>
                rw [next] at refused
                cases refused
                exact .overflow stack mode next
            | some following =>
                by_cases met : following = allocator.candidate node around
                · simp only [next, if_pos met] at refused
                  cases refused
                · simp only [next, if_neg met] at refused
                  cases refused
                  exact .mismatch stack mode next met
  · rcases answer_of_same_stack silent (rfl : allocator.stack = allocator.stack) with
      ⟨reason, same, -, other⟩ | ⟨reply, stack, -, answered, -⟩
    · rw [same] at refused
      cases refused
      exact .unchanged other
    · rw [answered] at refused
      cases refused

/-- A replaying allocator allocates the identity that is expected next, and no other. -/
theorem allocate_replay_eq_ok
    {identity : PathIdentity}
    (mode : allocator.mode = .replay expected cursor) :
    allocate allocator = .ok identity after ↔
      ∃ node around, allocator.stack = .node node :: around ∧
        expected[cursor]? = some identity ∧ identity = allocator.candidate node around ∧
        after = { allocator.counting node with mode := .replay expected (cursor + 1) } := by
  cases noPath : noPath? allocator.stack with
  | some reason =>
      rw [allocate_of_noPath noPath]
      constructor
      · intro contrary
        cases contrary
      · rintro ⟨node, around, stack, -⟩
        rw [stack] at noPath
        cases noPath
  | none =>
      obtain ⟨node, around, stack⟩ := noPath?_eq_none_iff.mp noPath
      rw [allocate_of_replay stack mode]
      constructor
      · intro allocated
        refine ⟨node, around, stack, ?_⟩
        cases next : expected[cursor]? with
        | none =>
            rw [next] at allocated
            cases allocated
        | some following =>
            by_cases met : following = allocator.candidate node around
            · simp only [next, if_pos met] at allocated
              cases allocated
              exact ⟨rfl, met, rfl⟩
            · simp only [next, if_neg met] at allocated
              cases allocated
      · rintro ⟨_, _, same, next, met, rfl⟩
        rw [stack] at same
        cases same
        simp only [next, if_pos met]

/-! ## Replays that expect nothing more -/

/-- Allocators in the same surroundings that expect nothing more, whatever they have met. -/
structure Spent (first second : PathAllocator) : Prop where
  stack : first.stack = second.stack
  mode : first.mode = second.mode
  nothing : ∃ expected cursor, second.mode = .replay expected cursor ∧ expected[cursor]? = none

/-- Allocators that expect nothing more answer a call alike, and expect nothing more after it. -/
theorem Spent.answer
    (spent : Spent first second)
    (call : AllocatorCall) :
    verdict call first = verdict call second ∧
      Spent (Operation.finalState (PathAllocator.answer call first))
        (Operation.finalState (PathAllocator.answer call second)) := by
  obtain ⟨stack, mode, expected, cursor, replays, nothing⟩ := spent
  have alike : (∃ error firstLeft secondLeft,
        PathAllocator.answer call first = .error error firstLeft ∧
        PathAllocator.answer call second = .error error secondLeft ∧
        firstLeft.stack = secondLeft.stack ∧ firstLeft.mode = secondLeft.mode ∧
        secondLeft.mode = .replay expected cursor) ∨
      ∃ reply stack, PathAllocator.answer call first = .ok reply { first with stack := stack } ∧
        PathAllocator.answer call second = .ok reply { second with stack := stack } := by
    by_cases silent : call = .allocate
    · subst silent
      simp only [answer_allocate_eq_error]
      cases noPath : noPath? second.stack with
      | some reason =>
          have others := allocate_of_noPath noPath
          rw [← stack] at noPath
          exact Or.inl ⟨_, _, _, allocate_of_noPath noPath, others, stack, mode, replays⟩
      | none =>
          obtain ⟨node, around, top⟩ := noPath?_eq_none_iff.mp noPath
          have refused := allocate_of_replay (stack.trans top) (mode.trans replays)
          have others := allocate_of_replay top replays
          rw [nothing] at refused others
          exact Or.inl ⟨_, _, _, refused, others, stack, mode, replays⟩
    · rcases answer_of_same_stack silent stack with ⟨reason, refused, others, -⟩ |
        ⟨reply, rest, -, answered, others⟩
      · exact Or.inl ⟨_, _, _, refused, others, stack, mode, replays⟩
      · exact Or.inr ⟨reply, rest, answered, others⟩
  rcases alike with ⟨error, firstLeft, secondLeft, refused, others, stack, mode, replays⟩ |
    ⟨reply, rest, answered, others⟩
  · rw [verdict_of_error refused, verdict_of_error others, refused, others]
    exact ⟨rfl, stack, mode, expected, cursor, replays, nothing⟩
  · rw [verdict_of_ok answered, verdict_of_ok others, answered, others]
    exact ⟨rfl, rfl, mode, expected, cursor, replays, nothing⟩

theorem Spent.answersLike (spent : Spent first second) : first.AnswersLike second := by
  intro calls
  induction calls generalizing first second with
  | nil => rfl
  | cons call calls inductionHypothesis =>
      obtain ⟨same, spentAfter⟩ := spent.answer call
      rw [verdicts, verdicts, same, inductionHypothesis spentAfter]

/-! ## Replays that are one occurrence ahead -/

/-- A replaying allocator that has met a path once more than another one in the same
surroundings. -/
structure Ahead
    (node : NodeId)
    (first second : PathAllocator) : Prop where
  stack : first.stack = second.stack
  mode : first.mode = second.mode
  seen : first.seen.Perm (node :: second.seen)
  replays : ∃ expected cursor, second.mode = .replay expected cursor

/-- The identities of the path are one occurrence ahead, and no others. -/
theorem Ahead.candidate_eq_iff
    {other : NodeId}
    (ahead : Ahead node first second) :
    first.candidate other around = second.candidate other around ↔ other ≠ node := by
  have counted := ahead.seen.count_eq other
  rw [List.count_cons] at counted
  simp only [candidate, PathIdentity.mk.injEq, true_and, counted]
  by_cases same : node = other
  · simp [same]
  · simp [same, Ne.symm same]

/-- The verdict on an allocation tells the identity that the path would have. -/
theorem candidate_of_verdict
    {next found : PathIdentity}
    (stack : allocator.stack = .node node :: around)
    (refused : verdict .allocate allocator = .error (.pathIdentityMismatch next found)) :
    allocator.candidate node around = found := by
  unfold verdict at refused
  split at refused
  next => cases refused
  next error left done =>
    cases refused
    cases refusal_of_answer done with
    | unchanged other => exact absurd rfl (other next found)
    | mismatch same =>
        rw [stack] at same
        cases same
        rfl

/-- What is answered to an allocator that is ahead is no identity of the path. -/
theorem Ahead.node_ne
    {identity : PathIdentity}
    {recovered : PathAllocator}
    (ahead : Ahead node first second)
    (answered : answer call second = .ok reply after)
    (again : answer call first = .ok reply recovered)
    (allocated : reply.identity? = some identity) :
    identity.node ≠ node := by
  obtain ⟨expected, cursor, replays⟩ := ahead.replays
  have silent : call = .allocate := by
    by_contra silent
    rw [(identity?_of_answer answered).mpr (Ne.symm silent)] at allocated
    cases allocated
  subst silent
  obtain ⟨_, rfl, done⟩ := answer_allocate_eq_ok.mp answered
  obtain ⟨_, same, doneAgain⟩ := answer_allocate_eq_ok.mp again
  cases same
  cases allocated
  obtain ⟨other, around, stack, -, met, -⟩ := (allocate_replay_eq_ok replays).mp done
  obtain ⟨_, _, sameStack, -, metAgain, -⟩ :=
    (allocate_replay_eq_ok (ahead.mode.trans replays)).mp doneAgain
  rw [ahead.stack.trans stack] at sameStack
  cases sameStack
  have isOther := ahead.candidate_eq_iff.mp (metAgain.symm.trans met)
  rwa [met]

/-- What is answered without the path being allocated is answered to an allocator that is ahead,
which stays ahead. -/
theorem Ahead.answer
    (ahead : Ahead node first second)
    (answered : PathAllocator.answer call second = .ok reply after)
    (others : ∀ identity, reply.identity? = some identity -> identity.node ≠ node) :
    ∃ recovered, PathAllocator.answer call first = .ok reply recovered ∧
      Ahead node recovered after := by
  obtain ⟨expected, cursor, replays⟩ := ahead.replays
  by_cases silent : call = .allocate
  · subst silent
    obtain ⟨identity, rfl, allocated⟩ := answer_allocate_eq_ok.mp answered
    obtain ⟨other, around, stack, next, met, rfl⟩ := (allocate_replay_eq_ok replays).mp allocated
    have isOther : other ≠ node := by
      have differs := others identity rfl
      rwa [met] at differs
    have again : allocate first =
        .ok identity { first.counting other with mode := .replay expected (cursor + 1) } :=
      (allocate_replay_eq_ok (ahead.mode.trans replays)).mpr ⟨other, around,
        ahead.stack.trans stack, next, met.trans (ahead.candidate_eq_iff.mpr isOther).symm, rfl⟩
    have seen : (first.counting other).seen.Perm (node :: (second.counting other).seen) :=
      (ahead.seen.cons other).trans (.swap node other second.seen)
    exact ⟨_, answer_allocate_eq_ok.mpr ⟨identity, rfl, again⟩, ahead.stack, rfl, seen,
      expected, cursor + 1, rfl⟩
  · rcases answer_of_same_stack silent ahead.stack with ⟨reason, -, refused, -⟩ |
      ⟨_, rest, -, again, done⟩
    · rw [refused] at answered
      cases answered
    · rw [done] at answered
      cases answered
      exact ⟨_, again, rfl, ahead.mode, ahead.seen, expected, cursor, replays⟩

end Call

/-- Calls that would have been answered are answered to an allocator that is ahead exactly when
they allocate no occurrence of the path. -/
theorem Ahead.answerAll_eq_ok_iff
    {node : NodeId}
    {first second after : PathAllocator}
    {calls : List AllocatorCall}
    {replies : List AllocatorAnswer}
    (ahead : Ahead node first second)
    (answered : answerAll calls second = .ok replies after) :
    (∃ recovered, answerAll calls first = .ok replies recovered) ↔
      ∀ reply ∈ replies, ∀ identity, reply.identity? = some identity -> identity.node ≠ node := by
  induction calls generalizing first second replies with
  | nil =>
      cases answered
      exact ⟨fun _ _ member => absurd member List.not_mem_nil, fun _ => ⟨first, rfl⟩⟩
  | cons call calls inductionHypothesis =>
      obtain ⟨reply, between, rest, answer, done, rfl⟩ := answerAll_cons_eq_ok.mp answered
      rw [List.forall_mem_cons]
      constructor
      · rintro ⟨recovered, again⟩
        obtain ⟨_, between', _, answerAgain, doneAgain, same⟩ := answerAll_cons_eq_ok.mp again
        cases same
        have others : ∀ identity, reply.identity? = some identity -> identity.node ≠ node :=
          fun identity => ahead.node_ne answer answerAgain
        obtain ⟨_, sameAnswer, aheadAfter⟩ := ahead.answer answer others
        rw [answerAgain] at sameAnswer
        cases sameAnswer
        exact ⟨others, (inductionHypothesis aheadAfter done).mp ⟨recovered, doneAgain⟩⟩
      · rintro ⟨others, later⟩
        obtain ⟨between', answerAgain, aheadAfter⟩ := ahead.answer answer others
        obtain ⟨recovered, doneAgain⟩ := (inductionHypothesis aheadAfter done).mpr later
        exact ⟨recovered, answerAll_cons_eq_ok.mpr
          ⟨reply, between', rest, answerAgain, doneAgain, rfl⟩⟩

/-! ## What is left of an allocator -/

/-- What a refused call leaves of an allocator. -/
structure Leaves
    (allocator : PathAllocator)
    (call : AllocatorCall)
    (error : CompileError)
    (left : PathAllocator) : Prop where
  /-- Entries, and allocations that are recorded, change nothing where they are refused. -/
  unchanged : call ≠ .allocate ∨ allocator.Records -> left = allocator
  /-- The surroundings and the identities stay as they are. -/
  kept : left.stack = allocator.stack ∧ left.mode = allocator.mode
  /-- Later calls are answered as if the refused one had not been made, unless another identity
  was expected. -/
  unnoticed : left.AnswersLike allocator ↔
    ∀ expected found, error ≠ .pathIdentityMismatch expected found
  /-- Where another identity was expected, later calls are answered as if the refused one had not
  been made exactly when they allocate no occurrence of the path that was refused. -/
  recovers : ∀ expected found, error = .pathIdentityMismatch expected found ->
    ∀ calls replies after, answerAll calls allocator = .ok replies after ->
      ((∃ recovered, answerAll calls left = .ok replies recovered) ↔
        ∀ reply ∈ replies, ∀ identity, reply.identity? = some identity ->
          identity.node ≠ found.node)

/-- A refused call is noticed by later ones exactly when a replay expected another identity. -/
theorem leaves_of_refused
    {allocator left : PathAllocator}
    {call : AllocatorCall}
    {error : CompileError}
    (refused : answer call allocator = .error error left) :
    allocator.Leaves call error left := by
  cases refusal_of_answer refused with
  | unchanged other =>
      exact ⟨fun _ => rfl, ⟨rfl, rfl⟩, ⟨fun _ => other, fun _ _ => rfl⟩,
        fun expected found contrary => absurd contrary (other expected found)⟩
  | @overflow node around expected cursor stack mode nothing =>
      have spent : Spent (allocator.counting node) allocator :=
        ⟨rfl, rfl, expected, cursor, mode, nothing⟩
      refine ⟨?_, ⟨rfl, rfl⟩, ⟨fun _ _ _ => by simp, fun _ => spent.answersLike⟩, by simp⟩
      rintro (silent | ⟨allocated, records⟩)
      · exact absurd rfl silent
      · rw [mode] at records
        cases records
  | @mismatch node around expected cursor next stack mode another differs =>
      have ahead : Ahead node (allocator.counting node) allocator :=
        ⟨rfl, rfl, .refl _, expected, cursor, mode⟩
      refine ⟨?_, ⟨rfl, rfl⟩, ⟨fun alike => ?_, fun other => absurd rfl (other _ _)⟩, ?_⟩
      · rintro (silent | ⟨allocated, records⟩)
        · exact absurd rfl silent
        · rw [mode] at records
          cases records
      · -- Allocating the path once more shows the count, in the identity or in the error.
        have refusedAlike : verdict .allocate (allocator.counting node) =
            .error (.pathIdentityMismatch next (allocator.candidate node around)) := by
          rw [← verdict_of_error refused]
          exact (List.cons.inj (alike [.allocate])).1
        have same : (allocator.counting node).candidate node around =
            allocator.candidate node around :=
          candidate_of_verdict stack refusedAlike
        exact absurd rfl (ahead.candidate_eq_iff.mp same)
      · rintro _ found same calls replies after answered
        cases same
        exact ahead.answerAll_eq_ok_iff answered

/-! ## Stray allocations -/

/-- A replay of a query that selects a path. It has come to a path in the restriction instead. -/
def strayed (path : NodeId) : PathAllocator :=
  performAll [.push (.statement ⟨0⟩ .query), .push (.clause .restriction), .push (.node path)]
    (performAll [.push (.statement ⟨0⟩ .query), .push (.clause .selection), .push (.node ⟨2⟩),
      .allocate] primary).replayOf

/-- The way back to the path that is selected. -/
def wayBack : List AllocatorCall :=
  [.pop, .pop, .push (.clause .selection), .push (.node ⟨2⟩), .allocate]

/-- The path that is selected. -/
def selectedPath (position : Nat) : PathIdentity :=
  ⟨⟨2⟩, [.clause .selection, .statement ⟨0⟩ .query], position⟩

/-- A replay that was refused another path can still allocate the one that is selected. -/
theorem strayed_leaves :
    ∃ error left recovered, answer .allocate (strayed ⟨3⟩) = .error error left ∧
      (strayed ⟨3⟩).Leaves .allocate error left ∧
      answerAll wayBack left = .ok
        [.popped (.node ⟨3⟩), .popped (.clause .restriction), .pushed, .pushed,
          .allocated (selectedPath 0)] recovered := by
  have refused : answer .allocate (strayed ⟨3⟩) = .error
      (.pathIdentityMismatch (selectedPath 0)
        ⟨⟨3⟩, [.clause .restriction, .statement ⟨0⟩ .query], 0⟩)
      ((strayed ⟨3⟩).counting ⟨3⟩) := rfl
  have leaves := leaves_of_refused refused
  have others : ∀ reply ∈ [AllocatorAnswer.popped (.node ⟨3⟩), .popped (.clause .restriction),
      .pushed, .pushed, .allocated (selectedPath 0)],
      ∀ identity, reply.identity? = some identity -> identity.node ≠ ⟨3⟩ := by
    simp [AllocatorAnswer.identity?, selectedPath]
  obtain ⟨recovered, again⟩ := (leaves.recovers _ _ rfl wayBack _ _ rfl).mpr others
  exact ⟨_, _, recovered, refused, leaves, again⟩

/-- A replay that was refused the selected path in another place can never allocate it again, while
it could have allocated it without the refused call. -/
theorem strayed_never_recovers :
    ∃ error left, answer .allocate (strayed ⟨2⟩) = .error error left ∧
      (verdicts wayBack (strayed ⟨2⟩)).getLast? = some (.ok (.allocated (selectedPath 0))) ∧
      (verdicts wayBack left).getLast? =
        some (.error (.pathIdentityMismatch (selectedPath 0) (selectedPath 1))) ∧
      ¬ left.AnswersLike (strayed ⟨2⟩) := by
  refine ⟨_, (strayed ⟨2⟩).counting ⟨2⟩, rfl, rfl, rfl, fun alike => ?_⟩
  have same := congrArg List.getLast? (alike wayBack)
  cases same

end PathAllocator
end QueryGraph
