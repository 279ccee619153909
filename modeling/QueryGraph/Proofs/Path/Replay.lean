import QueryGraph.Proofs.Walk.Steps

/-!
# Replaying path identities

Whoever walks a tree calls the allocator of path identities: it enters and leaves entries of the
stack, and allocates. A recording allocator and one that expects identities answer the same calls
alike for as long as the identities are those expected, because they have the same surroundings
and have met the same paths.
-/

namespace QueryGraph

/-- What a walk asks of an allocator. -/
inductive AllocatorCall
  | push (entry : StackEntry)
  | pop
  | allocate
  deriving DecidableEq, Repr

/-- What an allocator answers to a call. -/
inductive AllocatorAnswer
  | pushed
  | popped (entry : StackEntry)
  | allocated (identity : PathIdentity)
  deriving DecidableEq, Repr

/-- The identity that an answer allocates. -/
def AllocatorAnswer.identity? : AllocatorAnswer -> Option PathIdentity
  | .pushed => none
  | .popped _ => none
  | .allocated identity => some identity

namespace PathAllocator

/-- Answers a call. -/
def answer : AllocatorCall -> EStateM CompileError PathAllocator AllocatorAnswer
  | .push entry => do
      push entry
      return .pushed
  | .pop => return .popped (← pop)
  | .allocate => return .allocated (← allocate)

/-- Answers calls one after another, up to the first that is refused. -/
def answerAll
    (calls : List AllocatorCall) :
    EStateM CompileError PathAllocator (List AllocatorAnswer) :=
  calls.mapM answer

/-- An allocator that records what it allocates. -/
def Records (allocator : PathAllocator) : Prop :=
  ∃ allocated, allocator.mode = .primary allocated

/-- An allocator in the surroundings of another one. It expects identities, of which it has met as
many as the other one has. -/
def expecting
    (allocator : PathAllocator)
    (expected : List PathIdentity) : PathAllocator :=
  { allocator with mode := .replay expected allocator.identities.length }

theorem records_primary : primary.Records := ⟨[], rfl⟩

theorem expecting_primary (expected : List PathIdentity) :
    primary.expecting expected = replay expected := rfl

theorem isExhausted_expecting
    (allocator : PathAllocator)
    (expected : List PathIdentity) :
    (allocator.expecting expected).isExhausted = true ↔
      allocator.identities.length = expected.length :=
  beq_iff_eq

/-! ## One call -/

section Call

variable {allocator after replayed : PathAllocator} {expected : List PathIdentity}
  {call : AllocatorCall} {reply : AllocatorAnswer} {identity : PathIdentity} {error : CompileError}

theorem answer_push_eq_ok {entry : StackEntry} :
    answer (.push entry) allocator = .ok reply after ↔
      reply = .pushed ∧ push entry allocator = .ok () after := by
  simp only [answer, Operation.bind_eq_ok, Operation.pure_apply, EStateM.Result.ok.injEq]
  constructor
  · rintro ⟨⟨⟩, _, pushed, rfl, rfl⟩
    exact ⟨rfl, pushed⟩
  · rintro ⟨rfl, pushed⟩
    exact ⟨(), after, pushed, rfl, rfl⟩

theorem answer_pop_eq_ok :
    answer .pop allocator = .ok reply after ↔
      ∃ top, reply = .popped top ∧ pop allocator = .ok top after := by
  simp only [answer, Operation.bind_eq_ok, Operation.pure_apply, EStateM.Result.ok.injEq]
  constructor
  · rintro ⟨top, _, popped, rfl, rfl⟩
    exact ⟨top, rfl, popped⟩
  · rintro ⟨top, rfl, popped⟩
    exact ⟨top, after, popped, rfl, rfl⟩

theorem answer_allocate_eq_ok :
    answer .allocate allocator = .ok reply after ↔
      ∃ identity, reply = .allocated identity ∧ allocate allocator = .ok identity after := by
  simp only [answer, Operation.bind_eq_ok, Operation.pure_apply, EStateM.Result.ok.injEq]
  constructor
  · rintro ⟨identity, _, allocated, rfl, rfl⟩
    exact ⟨identity, rfl, allocated⟩
  · rintro ⟨identity, rfl, allocated⟩
    exact ⟨identity, after, allocated, rfl, rfl⟩

theorem Records.allocate_eq_ok (records : allocator.Records) :
    allocate allocator = .ok identity after ↔
      ∃ node around, allocator.stack = .node node :: around ∧
        identity = ⟨node, around, allocator.seen.count node⟩ ∧
        after = { allocator with
          seen := node :: allocator.seen
          mode := .primary (allocator.identities ++ [identity]) } := by
  obtain ⟨allocated, recorded⟩ := records
  have same : allocator.identities = allocated := by rw [identities, recorded]
  rw [same]
  exact Walking.allocate_eq_ok recorded

/-- Where a recording allocator allocates an identity, one that expects identities compares it with
the next of them. -/
theorem Records.allocate_expecting
    (records : allocator.Records)
    (expected : List PathIdentity)
    (allocated : allocate allocator = .ok identity after) :
    allocate (allocator.expecting expected) =
      match expected[allocator.identities.length]? with
      | none =>
          .error (.pathIdentityOverflow expected.length)
            { allocator.expecting expected with seen := after.seen }
      | some next =>
          if next = identity then .ok identity (after.expecting expected)
          else
            .error (.pathIdentityMismatch next identity)
              { allocator.expecting expected with seen := after.seen } := by
  obtain ⟨node, around, stack, same, rfl⟩ := records.allocate_eq_ok.mp allocated
  have surroundings : (allocator.expecting expected).stack = .node node :: around := stack
  have counter : (allocator.expecting expected).seen = allocator.seen := rfl
  have mode : (allocator.expecting expected).mode =
      .replay expected allocator.identities.length := rfl
  have following : PathAllocator.expecting { allocator with
      seen := node :: allocator.seen
      mode := .primary (allocator.identities ++ [identity]) } expected =
      { allocator.expecting expected with
        seen := node :: allocator.seen
        mode := .replay expected (allocator.identities.length + 1) } := by
    have counted : (allocator.identities ++ [identity]).length =
        allocator.identities.length + 1 := List.length_append
    rw [← counted]
    rfl
  unfold allocate
  rw [Operation.bind_of_ok (Operation.get_apply _)]
  simp only [surroundings, counter, mode, ← same]
  rw [Operation.bind_of_ok (Operation.set_apply _ _)]
  cases expected[allocator.identities.length]? with
  | none => rfl
  | some next =>
      by_cases met : next = identity
      · simp only [if_pos met]
        rw [Operation.bind_of_ok (Operation.set_apply _ _), following, met, ← stack]
        rfl
      · simp only [if_neg met]
        rfl

/-- Where a recording allocator has nothing to allocate, neither has one that expects
identities. -/
theorem Records.refused_expecting
    (records : allocator.Records)
    (refused : allocate allocator = .error error after) :
    allocate (allocator.expecting expected) = .error error (allocator.expecting expected) := by
  obtain ⟨stack, seen, mode⟩ := allocator
  obtain ⟨allocated, rfl⟩ := records
  match stack with
  | [] =>
      cases refused
      rfl
  | .statement _ _ :: _ | .clause _ :: _ | .compound _ :: _ =>
      cases refused
      rfl
  | .node node :: around => cases refused

/-- What an answer allocates is recorded after the identities before it. -/
theorem Records.answer
    (records : allocator.Records)
    (answered : answer call allocator = .ok reply after) :
    after.Records ∧ after.identities = allocator.identities ++ reply.identity?.toList := by
  obtain ⟨allocated, recorded⟩ := records
  cases call with
  | push entry =>
      obtain ⟨rfl, pushed⟩ := answer_push_eq_ok.mp answered
      obtain ⟨-, rfl⟩ := Walking.push_eq_ok.mp pushed
      exact ⟨⟨allocated, recorded⟩, (List.append_nil _).symm⟩
  | pop =>
      obtain ⟨top, rfl, popped⟩ := answer_pop_eq_ok.mp answered
      rw [(Walking.pop_eq_ok.mp popped).2]
      exact ⟨⟨allocated, recorded⟩, (List.append_nil _).symm⟩
  | allocate =>
      obtain ⟨identity, rfl, done⟩ := answer_allocate_eq_ok.mp answered
      obtain ⟨node, around, -, -, rfl⟩ := Records.allocate_eq_ok ⟨allocated, recorded⟩ |>.mp done
      exact ⟨⟨_, rfl⟩, rfl⟩

theorem identity?_of_answer
    (answered : PathAllocator.answer call allocator = .ok reply after) :
    reply.identity? = none ↔ .allocate ≠ call := by
  cases call with
  | push entry =>
      obtain ⟨rfl, -⟩ := answer_push_eq_ok.mp answered
      simp [AllocatorAnswer.identity?]
  | pop =>
      obtain ⟨top, rfl, -⟩ := answer_pop_eq_ok.mp answered
      simp [AllocatorAnswer.identity?]
  | allocate =>
      obtain ⟨identity, rfl, -⟩ := answer_allocate_eq_ok.mp answered
      simp [AllocatorAnswer.identity?]

/-- A list goes on as expected when its next item is the next one expected. -/
theorem append_singleton_isPrefix_iff
    {items expected : List α}
    {item : α} :
    items ++ [item] <+: expected ↔ items <+: expected ∧ expected[items.length]? = some item := by
  constructor
  · rintro ⟨rest, rfl⟩
    simp
  · rintro ⟨⟨rest, rfl⟩, next⟩
    cases rest with
    | nil => simp at next
    | cons first rest =>
        have same : first = item := by simpa using next
        exact ⟨rest, by simp [same]⟩

/-- Where the identities met are those expected so far, a recording allocator and one that
expects identities answer a call alike, as long as the identities remain so. -/
theorem Records.answer_expecting_eq_ok
    (records : allocator.Records)
    (met : allocator.identities <+: expected) :
    PathAllocator.answer call (allocator.expecting expected) = .ok reply replayed ↔
      ∃ after, PathAllocator.answer call allocator = .ok reply after ∧
        after.identities <+: expected ∧ replayed = after.expecting expected := by
  cases call with
  | push entry =>
      simp only [answer_push_eq_ok, Walking.push_eq_ok]
      constructor
      · rintro ⟨rfl, fault, rfl⟩
        exact ⟨_, ⟨rfl, fault, rfl⟩, met, rfl⟩
      · rintro ⟨_, ⟨rfl, fault, rfl⟩, -, rfl⟩
        exact ⟨rfl, fault, rfl⟩
  | pop =>
      simp only [answer_pop_eq_ok, Walking.pop_eq_ok]
      constructor
      · rintro ⟨top, rfl, stack, same⟩
        rw [same] at stack
        exact ⟨{ allocator with stack := allocator.stack.tail }, ⟨top, rfl, stack, rfl⟩, met, same⟩
      · rintro ⟨_, ⟨top, rfl, stack, same⟩, -, rfl⟩
        exact ⟨top, rfl, stack, congrArg (fun next => next.expecting expected) same⟩
  | allocate =>
      cases done : allocate allocator with
      | error error after =>
          simp only [answer_allocate_eq_ok, records.refused_expecting done, done, reduceCtorEq,
            and_false, exists_false, false_and]
      | ok identity after =>
          have recorded := (records.answer (answer_allocate_eq_ok.mpr ⟨identity, rfl, done⟩)).2
          have goesOn : after.identities <+: expected ↔
              expected[allocator.identities.length]? = some identity := by
            rw [recorded]
            exact append_singleton_isPrefix_iff.trans (and_iff_right met)
          simp only [answer_allocate_eq_ok, records.allocate_expecting expected done, done,
            EStateM.Result.ok.injEq]
          constructor
          · rintro ⟨_, rfl, allocated⟩
            cases next : expected[allocator.identities.length]? with
            | none =>
                rw [next] at allocated
                cases allocated
            | some following =>
                rw [next] at allocated
                by_cases same : following = identity
                · simp only [if_pos same] at allocated
                  cases allocated
                  refine ⟨after, ⟨_, rfl, rfl, rfl⟩, goesOn.mpr ?_, rfl⟩
                  rw [next, same]
                · simp only [if_neg same] at allocated
                  cases allocated
          · rintro ⟨_, ⟨_, rfl, rfl, rfl⟩, kept, rfl⟩
            refine ⟨identity, rfl, ?_⟩
            rw [goesOn.mp kept]
            exact if_pos rfl

end Call

/-! ## Calls one after another -/

section Calls

variable {allocator after replayed : PathAllocator} {expected : List PathIdentity}
  {calls before rest : List AllocatorCall} {replies : List AllocatorAnswer}
  {error : CompileError}

theorem answerAll_cons_eq_ok {call : AllocatorCall} :
    answerAll (call :: calls) allocator = .ok replies after ↔
      ∃ reply between others, answer call allocator = .ok reply between ∧
        answerAll calls between = .ok others after ∧ replies = reply :: others := by
  simp only [answerAll, List.mapM_cons, Operation.bind_eq_ok, Operation.pure_apply,
    EStateM.Result.ok.injEq]
  constructor
  · rintro ⟨reply, between, answered, others, _, done, rfl, rfl⟩
    exact ⟨reply, between, others, answered, done, rfl⟩
  · rintro ⟨reply, between, others, answered, done, rfl⟩
    exact ⟨reply, between, answered, others, after, done, rfl, rfl⟩

theorem answerAll_append
    (before rest : List AllocatorCall) :
    answerAll (before ++ rest) = do
      let first ← answerAll before
      let others ← answerAll rest
      return first ++ others :=
  List.mapM_append

/-- Calls that are answered are answered up to any of them, and then the rest. -/
theorem answerAll_append_eq_ok :
    answerAll (before ++ rest) allocator = .ok replies after ↔
      ∃ first between others, answerAll before allocator = .ok first between ∧
        answerAll rest between = .ok others after ∧ replies = first ++ others := by
  simp only [answerAll_append, Operation.bind_eq_ok, Operation.pure_apply,
    EStateM.Result.ok.injEq]
  constructor
  · rintro ⟨first, between, answered, others, _, done, rfl, rfl⟩
    exact ⟨first, between, others, answered, done, rfl⟩
  · rintro ⟨first, between, others, answered, done, rfl⟩
    exact ⟨first, between, answered, others, after, done, rfl, rfl⟩

/-- Calls are refused at the first that is refused, whatever follows it. -/
theorem answerAll_of_refused
    {call : AllocatorCall}
    {between : PathAllocator}
    (answered : answerAll before allocator = .ok replies between)
    (refused : answer call between = .error error after) :
    answerAll (before ++ call :: rest) allocator = .error error after := by
  have last : answerAll (call :: rest) between = .error error after := by
    rw [answerAll, List.mapM_cons, Operation.bind_of_error refused]
  rw [answerAll_append, Operation.bind_of_ok answered, Operation.bind_of_error last]

theorem length_of_answerAll
    (answered : answerAll calls allocator = .ok replies after) :
    replies.length = calls.length := by
  induction calls generalizing allocator replies with
  | nil =>
      cases answered
      rfl
  | cons call calls inductionHypothesis =>
      obtain ⟨reply, between, others, -, done, rfl⟩ := answerAll_cons_eq_ok.mp answered
      rw [List.length_cons, List.length_cons, inductionHypothesis done]

/-- The identities that answers allocate are recorded after those before. -/
theorem Records.answerAll
    (records : allocator.Records)
    (answered : answerAll calls allocator = .ok replies after) :
    after.Records ∧
      after.identities = allocator.identities ++ replies.filterMap AllocatorAnswer.identity? := by
  induction calls generalizing allocator replies with
  | nil =>
      cases answered
      exact ⟨records, (List.append_nil _).symm⟩
  | cons call calls inductionHypothesis =>
      obtain ⟨reply, between, others, first, done, rfl⟩ := answerAll_cons_eq_ok.mp answered
      obtain ⟨betweenRecords, met⟩ := records.answer first
      obtain ⟨afterRecords, identities⟩ := inductionHypothesis betweenRecords done
      refine ⟨afterRecords, ?_⟩
      rw [identities, met, List.append_assoc]
      cases allocated : reply.identity? <;> simp [allocated]

/-- As long as the identities are those expected, a recording allocator and one that expects
identities answer calls alike. -/
theorem Records.answerAll_expecting_eq_ok
    (records : allocator.Records)
    (met : allocator.identities <+: expected) :
    PathAllocator.answerAll calls (allocator.expecting expected) = .ok replies replayed ↔
      ∃ after, PathAllocator.answerAll calls allocator = .ok replies after ∧
        after.identities <+: expected ∧ replayed = after.expecting expected := by
  induction calls generalizing allocator replies with
  | nil =>
      constructor
      · rintro ⟨⟩
        exact ⟨allocator, rfl, met, rfl⟩
      · rintro ⟨_, ⟨⟩, -, rfl⟩
        rfl
  | cons call calls inductionHypothesis =>
      simp only [answerAll_cons_eq_ok, records.answer_expecting_eq_ok met]
      constructor
      · rintro ⟨reply, _, others, ⟨between, answered, kept, rfl⟩, done, rfl⟩
        obtain ⟨after, rest, last, rfl⟩ :=
          (inductionHypothesis (records.answer answered).1 kept).mp done
        exact ⟨after, ⟨reply, between, others, answered, rest, rfl⟩, last, rfl⟩
      · rintro ⟨after, ⟨reply, between, others, answered, rest, rfl⟩, last, rfl⟩
        obtain ⟨betweenRecords, -⟩ := records.answer answered
        have kept : between.identities <+: expected := by
          rw [(betweenRecords.answerAll rest).2] at last
          exact (List.prefix_append _ _).trans last
        exact ⟨reply, _, others, ⟨between, answered, kept, rfl⟩,
          (inductionHypothesis betweenRecords kept).mpr ⟨after, rest, last, rfl⟩, rfl⟩

/-- Nothing is allocated where no call allocates. -/
theorem filterMap_identity?_of_answerAll
    (answered : answerAll calls allocator = .ok replies after) :
    replies.filterMap AllocatorAnswer.identity? = [] ↔ .allocate ∉ calls := by
  induction calls generalizing allocator replies with
  | nil =>
      cases answered
      simp
  | cons call calls inductionHypothesis =>
      obtain ⟨reply, between, others, first, done, rfl⟩ := answerAll_cons_eq_ok.mp answered
      have silent := identity?_of_answer first
      have others := inductionHypothesis done
      rw [List.mem_cons, not_or, ← others, ← ne_eq, ← silent]
      cases allocated : reply.identity? <;> simp [allocated]

end Calls

/-! ## Replays -/

section Replays

variable {recorded : PathAllocator} {expected : List PathIdentity}
  {calls before rest : List AllocatorCall} {replies : List AllocatorAnswer}

/-- An allocator that answers calls one by one in a given way, and that has met all it expects
from the last allocation on. -/
def Retraces
    (allocator : PathAllocator)
    (calls : List AllocatorCall)
    (replies : List AllocatorAnswer) : Prop :=
  ∀ before rest, calls = before ++ rest -> ∃ replayed,
    answerAll before allocator = .ok (replies.take before.length) replayed ∧
      (replayed.isExhausted = true ↔ .allocate ∉ rest)

theorem answerAll_replay_eq_ok {replayed : PathAllocator} :
    answerAll calls (replay expected) = .ok replies replayed ↔
      ∃ recorded, answerAll calls primary = .ok replies recorded ∧
        recorded.identities <+: expected ∧ replayed = recorded.expecting expected := by
  rw [← expecting_primary]
  exact records_primary.answerAll_expecting_eq_ok (List.nil_prefix)

/-- What was recorded can be replayed. -/
theorem retraces_replay
    (answered : answerAll calls primary = .ok replies recorded) :
    (replay recorded.identities).Retraces calls replies := by
  rintro before rest rfl
  obtain ⟨first, between, others, begun, ended, rfl⟩ := answerAll_append_eq_ok.mp answered
  have taken : (first ++ others).take before.length = first := by
    rw [← length_of_answerAll begun, List.take_left]
  obtain ⟨records, -⟩ := records_primary.answerAll begun
  obtain ⟨-, goesOn⟩ := records.answerAll ended
  have met : between.identities <+: recorded.identities := by
    rw [goesOn]
    exact List.prefix_append _ _
  refine ⟨between.expecting recorded.identities, ?_, ?_⟩
  · rw [taken]
    exact answerAll_replay_eq_ok.mpr ⟨between, begun, met, rfl⟩
  · rw [isExhausted_expecting, goesOn, List.length_append, ← filterMap_identity?_of_answerAll ended,
      ← List.length_eq_zero_iff]
    omega

/-- A replay that met all it expects met what a recording allocator records. -/
theorem recorded_of_isExhausted
    {replayed : PathAllocator}
    (answered : answerAll calls (replay expected) = .ok replies replayed)
    (exhausted : replayed.isExhausted = true) :
    ∃ recorded, answerAll calls primary = .ok replies recorded ∧
      recorded.identities = expected := by
  obtain ⟨recorded, answers, met, rfl⟩ := answerAll_replay_eq_ok.mp answered
  exact ⟨recorded, answers, met.eq_of_length ((isExhausted_expecting _ _).mp exhausted)⟩

/-- An allocator that answers calls in a given way and refuses to allocate after them, with an
error, whatever is called later. -/
def StopsAfter
    (allocator : PathAllocator)
    (before : List AllocatorCall)
    (replies : List AllocatorAnswer)
    (error : CompileError) : Prop :=
  ∃ between left, answerAll before allocator = .ok replies between ∧
    answer .allocate between = .error error left ∧
    ∀ rest, answerAll (before ++ .allocate :: rest) allocator = .error error left

/-- Why a replay refuses an identity that is not the one expected. -/
def divergence
    (expected : List PathIdentity)
    (met : Nat)
    (identity : PathIdentity) : CompileError :=
  match expected[met]? with
  | none => .pathIdentityOverflow expected.length
  | some next => .pathIdentityMismatch next identity

/-- A replay is refused at the first identity that is not the one expected. -/
theorem stopsAfter_of_divergence
    {identity : PathIdentity}
    {after : PathAllocator}
    (answered : answerAll before primary = .ok replies recorded)
    (met : recorded.identities <+: expected)
    (allocated : allocate recorded = .ok identity after)
    (diverges : expected[recorded.identities.length]? ≠ some identity) :
    (replay expected).StopsAfter before replies
      (divergence expected recorded.identities.length identity) := by
  obtain ⟨records, -⟩ := records_primary.answerAll answered
  have compared := records.allocate_expecting expected allocated
  have refused : ∃ left, allocate (recorded.expecting expected) =
      .error (divergence expected recorded.identities.length identity) left := by
    unfold divergence
    cases next : expected[recorded.identities.length]? with
    | none =>
        rw [next] at compared
        exact ⟨_, compared⟩
    | some following =>
        have differs : following ≠ identity := fun same => diverges (same ▸ next)
        simp only [next, if_neg differs] at compared
        exact ⟨_, compared⟩
  obtain ⟨left, refused⟩ := refused
  have replays : answerAll before (replay expected) = .ok replies (recorded.expecting expected) :=
    answerAll_replay_eq_ok.mpr ⟨recorded, answered, met, rfl⟩
  have stops : answer .allocate (recorded.expecting expected) =
      .error (divergence expected recorded.identities.length identity) left :=
    Operation.bind_of_error refused
  exact ⟨_, left, replays, stops, fun rest => answerAll_of_refused replays stops⟩

end Replays
end PathAllocator
end QueryGraph
