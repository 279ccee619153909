import Mathlib
import QueryGraph.Proofs.Compile.Steps
import QueryGraph.Proofs.Path.Replay
import QueryGraph.Proofs.Path.Steps
import QueryGraph.Proofs.Walk.Scope

/-!
# The replay of a compilation

A walk reaches its allocator only by entering and leaving entries of the stack and by allocating.
So what a walk leaves of its allocator, a list of calls does. A result can be walked again with an
allocator that expects its identities. That walk is answered as the first one was, and it is stopped
at the first path that is not where it was.
-/

namespace QueryGraph
namespace Walk

/-- A walk whose allocator answered some calls in between. -/
def Calls (before after : Walk) : Prop :=
  ∃ calls replies,
    PathAllocator.answerAll calls before.allocator = .ok replies after.allocator

namespace Calls

theorem of_eq
    {before after : Walk}
    (same : after.allocator = before.allocator) :
    before.Calls after := by
  refine ⟨[], [], ?_⟩
  rw [same]
  rfl

theorem refl (walk : Walk) : walk.Calls walk := of_eq rfl

theorem trans
    {first second third : Walk}
    (earlier : first.Calls second)
    (later : second.Calls third) :
    first.Calls third := by
  obtain ⟨calls, replies, begun⟩ := earlier
  obtain ⟨rest, others, ended⟩ := later
  exact ⟨_, _, PathAllocator.answerAll_append_eq_ok.mpr ⟨_, _, _, begun, ended, rfl⟩⟩

theorem of_answer
    {before after : Walk}
    {call : AllocatorCall}
    {reply : AllocatorAnswer}
    (answered : PathAllocator.answer call before.allocator = .ok reply after.allocator) :
    before.Calls after :=
  ⟨[call], [reply], PathAllocator.answerAll_cons_eq_ok.mpr ⟨_, _, [], answered, rfl, rfl⟩⟩

end Calls
end Walk

namespace Walking

variable {schema : Schema}

/-- The bond of a walk that reaches its allocator by calls. -/
def calling : Bond := succeeding Walk.Calls

theorem calling_lawful : calling.Lawful := succeeding_lawful Walk.Calls.refl Walk.Calls.trans

theorem calling_of_stays
    {step : Walking α}
    (stays : ∀ {walk value next}, step walk = .ok value next -> walk.Stays next) :
    Obeys calling step :=
  obeys_succeeding fun done => Walk.Calls.of_eq (stays done).allocator

theorem calling_within
    {entry : StackEntry}
    {step : Walking Unit}
    (stepObeys : Obeys calling step) :
    Obeys calling (within entry step) := by
  refine obeys_succeeding fun {walk value next} done => ?_
  obtain ⟨fault, inside, stepDone, nonempty, rfl⟩ := within_eq_ok.mp done
  have enters : walk.Calls (walk.entering entry) :=
    Walk.Calls.of_answer (PathAllocator.answer_push_eq_ok.mpr
      ⟨rfl, push_eq_ok.mpr ⟨fault, rfl⟩⟩)
  have leaves : inside.Calls inside.leaving :=
    Walk.Calls.of_answer (PathAllocator.answer_pop_eq_ok.mpr
      ⟨_, rfl, pop_eq_ok.mpr ⟨(List.cons_head_tail nonempty).symm, rfl⟩⟩)
  exact (enters.trans (stepObeys.of_ok stepDone)).trans leaves

theorem calling_allocate : Obeys calling (onAllocator PathAllocator.allocate) := by
  refine obeys_succeeding fun done => ?_
  obtain ⟨allocator, allocated, rfl⟩ := onAllocator_eq_ok.mp done
  exact Walk.Calls.of_answer (PathAllocator.answer_allocate_eq_ok.mpr ⟨_, rfl, allocated⟩)

theorem calling_visitPath (id : NodeId) : Obeys calling (visitPath id) := by
  have lawful := calling_lawful
  apply calling_within
  apply Obeys.bind lawful (Obeys.read lawful _)
  intro chain
  apply Obeys.bind lawful (calling_of_stays stays_of_holdAll)
  intro _
  refine Obeys.bind lawful lawful.done_refl fun walk => ?_
  by_cases outside : chain.source.statement ∉ walk.enclosing
  · simp only [if_pos outside]
    exact Obeys.throw lawful fun _ => nofun
  · simp only [if_neg outside]
    exact Obeys.bind lawful calling_allocate fun _ => Obeys.pure lawful ()

theorem calling_visitParameter
    (id : NodeId)
    (name : Option String) :
    Obeys calling (visitParameter id name) := by
  have registers : ∀ {α : Type} (action : EStateM CompileError ParameterRegistry α),
      Obeys calling (onParameters action) := fun action => obeys_succeeding fun done => by
    obtain ⟨parameters, -, rfl⟩ := onParameters_eq_ok.mp done
    exact Walk.Calls.of_eq rfl
  apply calling_within
  cases name with
  | some name => exact registers _
  | none => exact Obeys.bind calling_lawful (registers _) fun _ => Obeys.pure calling_lawful ()

theorem calling_expressive : calling.Expressive where
  lawful := calling_lawful
  hold _ := calling_of_stays stays_of_hold
  path := calling_visitPath
  parameter := calling_visitParameter
  literal _ _ := calling_within (obeys_succeeding fun done => by
    cases done
    exact Walk.Calls.of_eq rfl)
  within _ _ _ _ stepObeys := calling_within stepObeys

theorem calling_visitClause
    {expression : NodeId -> Walking Unit}
    (expressionObeys : ∀ id, Obeys calling (expression id))
    (statement : Statement)
    (clause : Clause) :
    Obeys calling (visitClause expression statement clause) := by
  have items : Obeys calling (clauseItems statement clause) := by
    cases clause with
    | on => exact Obeys.bind calling_lawful (Obeys.read calling_lawful _) fun _ =>
        Obeys.pure calling_lawful _
    | _ => exact Obeys.pure calling_lawful _
  exact calling_within (Obeys.bind calling_lawful items fun _ =>
    Obeys.forM calling_lawful fun item _ => expressionObeys item)

theorem calling_enterStatement
    {expression : NodeId -> Walking Unit}
    (expressionObeys : ∀ id, Obeys calling (expression id))
    (id : NodeId) :
    Obeys calling (enterStatement schema expression id) := by
  refine obeys_succeeding fun {walk value next} done => ?_
  obtain ⟨-, held, statement, holds, -, inside⟩ := enterStatement_eq_ok.mp done
  have body : Obeys calling (visitBody schema expression id statement) := by
    refine obeys_succeeding fun {before _ after} visited => ?_
    obtain ⟨declared, last, sources, clausesDone, rfl⟩ := visitBody_eq_ok.mp visited
    have opened : before.Calls declared :=
      .of_eq (stays_of_visitSources sources).1.allocator
    have clausesCall : declared.Calls last :=
      (Obeys.forM calling_lawful fun clause _ =>
        calling_visitClause expressionObeys statement clause).of_ok clausesDone
    exact (opened.trans clausesCall).trans (.of_eq rfl)
  exact (Walk.Calls.of_eq (stays_of_hold holds).allocator).trans
    ((calling_within body).of_ok inside)

/-- What a walk leaves of its allocator, some calls do. -/
theorem calls_of_walkTree
    {before after : Walk}
    (done : walkTree schema before = .ok () after) :
    before.Calls after := by
  have complete : calling.Complete schema :=
    ⟨calling_expressive, fun expressionObeys => calling_enterStatement expressionObeys _⟩
  exact (obeys_walkTree complete).of_ok done

end Walking

/-! ## Replays -/

/-- The identities of a result are those that calls of its walk allocated. -/
theorem Tree.exists_calls_of_compile
    {tree held : Tree}
    {schema : Schema}
    {config : CompilerConfig}
    {owner : Owner}
    {compiled : CompiledGraph}
    (done : tree.compile schema config owner = (.ok compiled, held)) :
    ∃ calls replies recorded,
      PathAllocator.answerAll calls .primary = .ok replies recorded ∧
        recorded.identities = compiled.identities := by
  obtain ⟨walk, walked, finished, -⟩ := compile_eq_ok.mp done
  obtain ⟨calls, replies, answered⟩ := Walking.calls_of_walkTree walked
  obtain ⟨paths, graph, fetched, pathsDone, -, rfl⟩ := Walk.finish_eq_ok.mp finished
  exact ⟨calls, replies, walk.allocator, answered,
    (PathContext.identities_of_compilePaths pathsDone).symm⟩

namespace PathAllocator

/-- A replay answers the calls that recorded its identities as they were answered, and the calls
that exhaust a replay record its identities. A walk that goes another way is stopped where it
first does. -/
theorem replay_agrees :
    (∀ {calls replies recorded}, answerAll calls primary = .ok replies recorded ->
      recorded.identities = replies.filterMap AllocatorAnswer.identity? ∧
        recorded.replayOf.Retraces calls replies ∧
        ∀ compiled : CompiledGraph, compiled.identities = recorded.identities ->
          compiled.replay.Retraces calls replies) ∧
    (∀ {tree held : Tree} {schema config owner compiled},
      tree.compile schema config owner = (.ok compiled, held) ->
        ∃ calls replies recorded, answerAll calls primary = .ok replies recorded ∧
          recorded.identities = compiled.identities) ∧
    (∀ {expected calls replies replayed},
      answerAll calls (replay expected) = .ok replies replayed ->
        replayed.isExhausted = true ->
          ∃ recorded, answerAll calls primary = .ok replies recorded ∧
            recorded.identities = expected) ∧
    ∀ (expected : List PathIdentity) (met : Nat) {before replies recorded identity after},
      answerAll before primary = .ok replies recorded ->
        met ≤ expected.length -> recorded.identities = expected.take met ->
        allocate recorded = .ok identity after -> expected[met]? ≠ some identity ->
          (∀ below : met < expected.length, (replay expected).StopsAfter before replies
            (.pathIdentityMismatch expected[met] identity)) ∧
          (met = expected.length -> (replay expected).StopsAfter before replies
            (.pathIdentityOverflow expected.length)) := by
  refine ⟨fun answered => ?_, Tree.exists_calls_of_compile, recorded_of_isExhausted, ?_⟩
  · refine ⟨(records_primary.answerAll answered).2, retraces_replay answered, ?_⟩
    intro compiled same
    unfold CompiledGraph.replay
    rw [same]
    exact retraces_replay answered
  · intro expected met before replies recorded identity after answered bounded same allocated
      diverges
    have length : recorded.identities.length = met := by
      rw [same, List.length_take, Nat.min_eq_left bounded]
    have isPrefix : recorded.identities <+: expected := by
      rw [same]
      exact List.take_prefix met expected
    have stops := stopsAfter_of_divergence answered isPrefix allocated (by rwa [length])
    rw [length] at stops
    unfold divergence at stops
    constructor
    · intro below
      rwa [List.getElem?_eq_getElem below] at stops
    · rintro rfl
      rwa [List.getElem?_eq_none (Nat.le_refl _)] at stops

/-- Teams with titles. -/
def titledTeams : Schema :=
  ⟨⟨[("Team", .ofFields "Team" [.scalar "title"])]⟩⟩

/-- A query for the titles of all teams. -/
def teamTitles : Tree :=
  (Tree.ofKind .query).performAll [
    .build (.root Tree.top "Team"),
    .build (.access ⟨1⟩ "title"),
    .build (.select Tree.top ⟨2⟩)]

/-- The calls on the way to the title in a clause of the query. -/
def towardsTitle (clause : Clause) : List AllocatorCall :=
  [.push (.statement Tree.top .query), .push (.clause clause), .push (.node ⟨2⟩)]

/-- The title where it is met in a clause of the query. -/
def titleIn (clause : Clause) : PathIdentity :=
  ⟨⟨2⟩, [.clause clause, .statement Tree.top .query], 0⟩

/-- The query is replayed by the way to the title in its selection. The way to the restriction is
stopped at the first title, and a second title is one too many. -/
theorem teamTitles_agrees :
    ∃ compiled held replies recorded,
      teamTitles.compile titledTeams {} ⟨8⟩ = (.ok compiled, held) ∧
        compiled.identities = [titleIn .selection] ∧
        answerAll (towardsTitle .selection ++ [.allocate]) primary = .ok replies recorded ∧
        compiled.replay.Retraces (towardsTitle .selection ++ [.allocate]) replies ∧
        recorded.replayOf.Retraces (towardsTitle .selection ++ [.allocate]) replies ∧
        (∃ calls replies again, answerAll calls primary = .ok replies again ∧
          again.identities = compiled.identities) ∧
        (∃ again, answerAll (towardsTitle .selection ++ [.allocate]) primary = .ok replies again ∧
          again.identities = [titleIn .selection]) ∧
        (replay [titleIn .selection]).StopsAfter (towardsTitle .restriction)
          [.pushed, .pushed, .pushed]
          (.pathIdentityMismatch (titleIn .selection) (titleIn .restriction)) ∧
        (replay [titleIn .selection]).StopsAfter (towardsTitle .selection ++ [.allocate]) replies
          (.pathIdentityOverflow 1) := by
  have succeeds : ((teamTitles.compile titledTeams {} ⟨8⟩).1.toOption.any fun compiled =>
      decide (compiled.identities = [titleIn .selection])) = true := by
    cbv
  obtain ⟨compiled, held, done, listed⟩ := Tree.exists_compiled succeeds
  have identities := of_decide_eq_true listed
  obtain ⟨retraced, walked, exhausted, stopped⟩ := replay_agrees
  have answered : answerAll (towardsTitle .selection ++ [.allocate]) primary = .ok _ _ := rfl
  have replayed : answerAll (towardsTitle .selection ++ [.allocate])
      (replay [titleIn .selection]) = .ok _ _ := rfl
  have restricted : answerAll (towardsTitle .restriction) primary = .ok _ _ := rfl
  obtain ⟨-, again, compiledAgain⟩ := retraced answered
  refine ⟨compiled, held, _, _, done, identities, answered, compiledAgain compiled identities,
    again, walked done, exhausted replayed rfl, ?_, ?_⟩
  · exact (stopped [titleIn .selection] 0 restricted (by decide) rfl rfl (by decide)).1 (by decide)
  · exact (stopped [titleIn .selection] 1 answered (by decide) rfl rfl (by decide)).2 rfl

end PathAllocator
end QueryGraph
