import QueryGraph.Proofs.Parameters.Steps
import QueryGraph.Proofs.Schema.Lookup
import QueryGraph.Proofs.Walk.Steps

/-!
# What a walk leaves behind

A bond relates a walk before a step to the walk after it, both when the step
succeeds and when it is refused. A bond that every visit of a single node obeys is
obeyed by the visit of every expression and of every statement.
-/

namespace QueryGraph

/-! ## Errors of the path stack and of the placeholders -/

/-- What the path stack and the placeholders refuse. -/
inductive CompileError.FailsRecord : CompileError -> Prop
  | push (entry : StackEntry) (fault : PushFault) : FailsRecord (.invalidStackPush entry fault)
  | empty : FailsRecord .emptyPathStack
  | notAPath (entry : StackEntry) : FailsRecord (.notAPath entry)
  | overflow (allocated : Nat) : FailsRecord (.pathIdentityOverflow allocated)
  | mismatch (expected found : PathIdentity) : FailsRecord (.pathIdentityMismatch expected found)
  | conflict (name : String) (first second : NodeId) :
      FailsRecord (.namedParameterConflict name first second)
  | reuse (parameter : NodeId) : FailsRecord (.anonymousParameterReused parameter)

open CompileError (FailsRecord)
open Operation (Ends)

theorem CompileError.FailsRecord.blameless
    {error : CompileError}
    (fails : error.FailsRecord) :
    error.Blameless := by
  cases fails <;> exact fun _ => nofun

theorem PathAllocator.failsRecord_push
    (entry : StackEntry)
    (before : PathAllocator) :
    Ends (fun _ _ => True) FailsRecord (PathAllocator.push entry before) := by
  unfold PathAllocator.push
  refine Ends.bind_ok (Operation.get_apply before) ?_
  cases PathAllocator.pushFault? entry before.peek with
  | none => trivial
  | some fault => exact .push entry fault

theorem PathAllocator.failsRecord_pop (before : PathAllocator) :
    Ends (fun _ _ => True) FailsRecord (PathAllocator.pop before) := by
  obtain ⟨stack, seen, mode⟩ := before
  cases stack with
  | nil => exact .empty
  | cons top rest => trivial

theorem PathAllocator.failsRecord_allocate (before : PathAllocator) :
    Ends (fun _ _ => True) FailsRecord (PathAllocator.allocate before) := by
  obtain ⟨stack, seen, mode⟩ := before
  unfold PathAllocator.allocate
  refine Ends.bind_ok (Operation.get_apply _) ?_
  match stack, mode with
  | [], _ => exact .empty
  | .statement _ _ :: _, _ | .clause _ :: _, _ | .compound _ :: _, _ => exact .notAPath _
  | .node node :: around, .primary allocated => trivial
  | .node node :: around, .replay expected cursor =>
      refine Ends.bind_ok (Operation.set_apply _ _) ?_
      cases next : expected[cursor]? with
      | none => exact .overflow expected.length
      | some following =>
          simp only
          split
          · trivial
          · exact .mismatch following _

theorem ParameterRegistry.failsRecord_registerNamed
    (name : String)
    (parameter : NodeId)
    (before : ParameterRegistry) :
    Ends (fun _ _ => True) FailsRecord
      (ParameterRegistry.registerNamed name parameter before) := by
  rw [ParameterRegistry.registerNamed_apply]
  cases before.node? name with
  | none => trivial
  | some first =>
      simp only
      split
      · trivial
      · exact .conflict name first parameter

theorem ParameterRegistry.failsRecord_registerAnonymous
    (parameter : NodeId)
    (before : ParameterRegistry) :
    Ends (fun _ _ => True) FailsRecord
      (ParameterRegistry.registerAnonymous parameter before) := by
  rw [ParameterRegistry.registerAnonymous_apply]
  split
  · exact .reuse parameter
  · trivial

/-! ## Bonds -/

/-- A step that changes only what a walk records about occurrences. -/
structure Walk.Retains (before after : Walk) : Prop where
  tree : after.tree = before.tree
  guard : after.guard = before.guard
  sources : after.sources = before.sources
  statementRoots : after.statementRoots = before.statementRoots

namespace Walking

/-- What a step may leave of a walk. -/
structure Bond where
  /-- The walk before and after a step that succeeds. -/
  done : Walk -> Walk -> Prop
  /-- The error of a step that is refused, and the walk before and after it. -/
  refused : CompileError -> Walk -> Walk -> Prop

/-- A step that leaves of a walk what a bond allows. -/
def ObeysAt
    (bond : Bond)
    (step : Walking α)
    (walk : Walk) : Prop :=
  match step walk with
  | .ok _ next => bond.done walk next
  | .error error next => bond.refused error walk next

/-- A step that leaves of every walk what a bond allows. -/
def Obeys (bond : Bond) (step : Walking α) : Prop := ∀ walk, ObeysAt bond step walk

/-- A bond that one may keep step by step. A step may be refused at any time, but an unknown
record type is not for every step to report. -/
structure Bond.Lawful (bond : Bond) : Prop where
  done_refl : ∀ walk, bond.done walk walk
  refused_refl : ∀ {error}, error.Blameless -> ∀ walk, bond.refused error walk walk
  done_trans : ∀ {first second third},
    bond.done first second -> bond.done second third -> bond.done first third
  refused_trans : ∀ {error first second third},
    bond.done first second -> bond.refused error second third -> bond.refused error first third

theorem ObeysAt.of_cases
    {bond : Bond}
    {step : Walking α}
    {walk : Walk}
    (done : ∀ {value next}, step walk = .ok value next -> bond.done walk next)
    (refused : ∀ {error next}, step walk = .error error next -> bond.refused error walk next) :
    ObeysAt bond step walk := by
  unfold ObeysAt
  cases result : step walk with
  | ok value next => exact done result
  | error error next => exact refused result

/-- A second step may rely on what the first one did. -/
theorem ObeysAt.bind
    {bond : Bond}
    {first : Walking α}
    {rest : α -> Walking β}
    {walk : Walk}
    (lawful : bond.Lawful)
    (firstObeys : ObeysAt bond first walk)
    (restObeys : ∀ value next, first walk = .ok value next -> ObeysAt bond (rest value) next) :
    ObeysAt bond (first >>= rest) walk := by
  unfold ObeysAt at firstObeys ⊢
  rw [Operation.bind_apply]
  cases step : first walk with
  | error error next =>
      rw [step] at firstObeys
      exact firstObeys
  | ok value next =>
      rw [step] at firstObeys
      have later := restObeys value next step
      unfold ObeysAt at later
      cases last : rest value next with
      | ok result final =>
          rw [last] at later
          simp only [last]
          exact lawful.done_trans firstObeys later
      | error error final =>
          rw [last] at later
          simp only [last]
          exact lawful.refused_trans firstObeys later

namespace Obeys

variable {bond : Bond}

theorem of_ok
    {step : Walking α}
    {value : α}
    {walk next : Walk}
    (obeys : Obeys bond step)
    (done : step walk = .ok value next) :
    bond.done walk next := by
  have kept := obeys walk
  unfold ObeysAt at kept
  rwa [done] at kept

theorem of_error
    {step : Walking α}
    {error : CompileError}
    {walk next : Walk}
    (obeys : Obeys bond step)
    (refused : step walk = .error error next) :
    bond.refused error walk next := by
  have kept := obeys walk
  unfold ObeysAt at kept
  rwa [refused] at kept

theorem pure
    (lawful : bond.Lawful)
    (value : α) :
    Obeys bond (pure value) :=
  lawful.done_refl

theorem throw
    {error : CompileError}
    (lawful : bond.Lawful)
    (blameless : error.Blameless) :
    Obeys bond (throw error : Walking α) :=
  lawful.refused_refl blameless

theorem bind
    {first : Walking α}
    {rest : α -> Walking β}
    (lawful : bond.Lawful)
    (firstObeys : Obeys bond first)
    (restObeys : ∀ value, Obeys bond (rest value)) :
    Obeys bond (first >>= rest) :=
  fun walk => ObeysAt.bind lawful (firstObeys walk) fun value next _ => restObeys value next

theorem forM
    {action : α -> Walking PUnit}
    {items : List α}
    (lawful : bond.Lawful)
    (actionObeys : ∀ item ∈ items, Obeys bond (action item)) :
    Obeys bond (items.forM action) := by
  induction items with
  | nil => exact pure lawful PUnit.unit
  | cons item items inductionHypothesis =>
      apply bind lawful (actionObeys item List.mem_cons_self)
      intro _
      exact inductionHypothesis fun next member =>
        actionObeys next (List.mem_cons_of_mem item member)

theorem mapM
    {action : α -> Walking β}
    {items : List α}
    (lawful : bond.Lawful)
    (actionObeys : ∀ item ∈ items, Obeys bond (action item)) :
    Obeys bond (items.mapM action) := by
  induction items with
  | nil => exact pure lawful []
  | cons item items inductionHypothesis =>
      rw [List.mapM_cons]
      apply bind lawful (actionObeys item List.mem_cons_self)
      intro first
      refine bind lawful ?_ fun rest => pure lawful (first :: rest)
      exact inductionHypothesis fun next member =>
        actionObeys next (List.mem_cons_of_mem item member)

/-- Looking at the tree leaves the walk as it is. -/
theorem read
    (lawful : bond.Lawful)
    (query : Tree -> Except TreeError α) :
    Obeys bond (Walking.read query) := by
  refine bind lawful lawful.done_refl fun walk => ?_
  cases query walk.tree with
  | ok value => exact pure lawful value
  | error error => exact throw lawful fun _ => nofun

end Obeys

/-! ## Steps that only record -/

/-- The bond of a step that changes only what a walk records about occurrences. -/
def recording : Bond where
  done := Walk.Retains
  refused error before after := error.Blameless ∧ before.Retains after

namespace Recording

theorem onAllocator
    {action : EStateM CompileError PathAllocator α}
    (blameless : ∀ {before error after}, action before = .error error after -> error.Blameless) :
    Obeys recording (onAllocator action) := by
  intro walk
  unfold ObeysAt Walking.onAllocator
  cases done : action walk.allocator with
  | ok value allocator => exact ⟨rfl, rfl, rfl, rfl⟩
  | error error allocator => exact ⟨blameless done, rfl, rfl, rfl, rfl⟩

theorem onParameters
    {action : EStateM CompileError ParameterRegistry α}
    (blameless : ∀ {before error after}, action before = .error error after -> error.Blameless) :
    Obeys recording (onParameters action) := by
  intro walk
  unfold ObeysAt Walking.onParameters
  cases done : action walk.parameters with
  | ok value parameters => exact ⟨rfl, rfl, rfl, rfl⟩
  | error error parameters => exact ⟨blameless done, rfl, rfl, rfl, rfl⟩

theorem push (entry : StackEntry) :
    Obeys recording (Walking.onAllocator (PathAllocator.push entry)) :=
  onAllocator fun refused => ((PathAllocator.failsRecord_push entry _).of_error refused).blameless

theorem pop : Obeys recording (Walking.onAllocator PathAllocator.pop) :=
  onAllocator fun refused => ((PathAllocator.failsRecord_pop _).of_error refused).blameless

theorem allocate : Obeys recording (Walking.onAllocator PathAllocator.allocate) :=
  onAllocator fun refused => ((PathAllocator.failsRecord_allocate _).of_error refused).blameless

theorem registerNamed
    (name : String)
    (id : NodeId) :
    Obeys recording (Walking.onParameters (ParameterRegistry.registerNamed name id)) :=
  onParameters fun refused =>
    ((ParameterRegistry.failsRecord_registerNamed name id _).of_error refused).blameless

theorem registerAnonymous (id : NodeId) :
    Obeys recording (Walking.onParameters (ParameterRegistry.registerAnonymous id)) :=
  onParameters fun refused =>
    ((ParameterRegistry.failsRecord_registerAnonymous id _).of_error refused).blameless

end Recording

/-- A bond that holds and records obey. -/
structure Bond.Primitive (bond : Bond) : Prop where
  lawful : bond.Lawful
  hold : ∀ id, Obeys bond (Walking.hold id)
  records : ∀ {α : Type} {step : Walking α}, Obeys recording step -> Obeys bond step

namespace Bond.Primitive

variable {bond : Bond} (primitive : bond.Primitive)

include primitive

theorem holdAll (ids : List NodeId) : Obeys bond (holdAll ids) :=
  Obeys.forM primitive.lawful fun id _ => primitive.hold id

theorem within_at
    {entry : StackEntry}
    {step : Walking Unit}
    {walk : Walk}
    (stepObeys : ∀ next, next.tree = walk.tree -> ObeysAt bond step next) :
    ObeysAt bond (within entry step) walk := by
  refine ObeysAt.bind primitive.lawful (primitive.records (Recording.push entry) walk) ?_
  intro _ next pushed
  refine ObeysAt.bind primitive.lawful
    (stepObeys next ((Recording.push entry).of_ok pushed).tree) fun _ last _ => ?_
  refine Obeys.bind primitive.lawful (primitive.records Recording.pop) (fun _ => ?_) last
  exact Obeys.pure primitive.lawful ()

theorem within
    {step : Walking Unit}
    (entry : StackEntry)
    (stepObeys : Obeys bond step) :
    Obeys bond (within entry step) :=
  fun _ => primitive.within_at fun next _ => stepObeys next

theorem visitPath (id : NodeId) : Obeys bond (visitPath id) := by
  have lawful := primitive.lawful
  apply primitive.within
  apply Obeys.bind lawful (Obeys.read lawful _)
  intro chain
  apply Obeys.bind lawful (primitive.holdAll chain.below)
  intro _
  refine Obeys.bind lawful lawful.done_refl fun walk => ?_
  by_cases outside : chain.source.statement ∉ walk.enclosing
  · simp only [if_pos outside]
    exact Obeys.throw lawful fun _ => nofun
  · simp only [if_neg outside]
    exact Obeys.bind lawful (primitive.records Recording.allocate) fun _ => Obeys.pure lawful ()

theorem visitParameter
    (id : NodeId)
    (name : Option String) :
    Obeys bond (visitParameter id name) := by
  apply primitive.within
  cases name with
  | some name => exact primitive.records (Recording.registerNamed name id)
  | none =>
      exact Obeys.bind primitive.lawful (primitive.records (Recording.registerAnonymous id))
        fun _ => Obeys.pure primitive.lawful ()

theorem visitLiteral
    (id : NodeId)
    (value : Literal) :
    Obeys bond (visitLiteral id value) :=
  primitive.within _ (primitive.records fun _ => ⟨rfl, rfl, rfl, rfl⟩)

theorem clauseItems
    (statement : Statement)
    (clause : Clause) :
    Obeys bond (clauseItems statement clause) := by
  have lawful := primitive.lawful
  cases clause with
  | on => exact Obeys.bind lawful (Obeys.read lawful _) fun _ => Obeys.pure lawful _
  | _ => exact Obeys.pure lawful _

end Bond.Primitive

/-! ## Visiting expressions -/

/-- A bond that the visit of every single node obeys. -/
structure Bond.Expressive (bond : Bond) : Prop where
  lawful : bond.Lawful
  hold : ∀ id, Obeys bond (Walking.hold id)
  path : ∀ id, Obeys bond (visitPath id)
  parameter : ∀ id name, Obeys bond (visitParameter id name)
  literal : ∀ id value, Obeys bond (visitLiteral id value)
  within : ∀ id {entry step}, entry = .node id ∨ entry = .compound id ->
    Obeys bond step -> Obeys bond (within entry step)

theorem obeys_visitContents
    {bond : Bond}
    {expression : NodeId -> Walking Unit}
    (expressive : bond.Expressive)
    (expressionObeys : ∀ id, Obeys bond (expression id))
    (id : NodeId)
    (node : Node) :
    Obeys bond (visitContents expression id node) := by
  have lawful := expressive.lawful
  cases node with
  | statement body => exact Obeys.throw lawful fun _ => nofun
  | source body => exact expressive.path id
  | fetch body => exact Obeys.throw lawful fun _ => nofun
  | path parent field => exact expressive.path id
  | treat target asType => exact expressive.path id
  | parameter name => exact expressive.parameter id name
  | literal value => exact expressive.literal id value
  | expression operator operands =>
      refine expressive.within id ?_
        (Obeys.forM lawful fun operand _ => expressionObeys operand)
      by_cases isTuple : operator = .tuple
      · exact Or.inr (if_pos isTuple)
      · exact Or.inl (if_neg isTuple)
  | order ordered ascending => exact expressive.within id (Or.inl rfl) (expressionObeys ordered)
  | assignment target value =>
      exact expressive.within id (Or.inl rfl)
        (Obeys.bind lawful (expressionObeys target) fun _ => expressionObeys value)

theorem obeys_visitNode
    {bond : Bond}
    {subquery expression : NodeId -> Walking Unit}
    (expressive : bond.Expressive)
    (subqueryObeys : ∀ id, Obeys bond (subquery id))
    (expressionObeys : ∀ id, Obeys bond (expression id))
    (id : NodeId)
    (node : Node) :
    Obeys bond (visitNode subquery expression id node) := by
  have held : ∀ other, Obeys bond (do
      Walking.hold id
      visitContents expression id other) := fun other =>
    Obeys.bind expressive.lawful (expressive.hold id) fun _ =>
      obeys_visitContents expressive expressionObeys id other
  cases node with
  | statement body =>
      unfold visitNode
      by_cases isSubquery : body.kind = .subquery
      · simp only [isSubquery, if_true]
        exact subqueryObeys id
      · simp only [isSubquery, if_false]
        exact held (.statement body)
  | _ => exact held _

theorem obeys_visitExpression
    {bond : Bond}
    {subquery : NodeId -> Walking Unit}
    (expressive : bond.Expressive)
    (subqueryObeys : ∀ id, Obeys bond (subquery id))
    (fuel : Nat)
    (id : NodeId) :
    Obeys bond (visitExpression subquery fuel id) := by
  induction fuel generalizing id with
  | zero => exact Obeys.throw expressive.lawful fun _ => nofun
  | succ fuel inductionHypothesis =>
      rw [visitExpression_succ]
      exact Obeys.bind expressive.lawful (Obeys.read expressive.lawful _) fun node =>
        obeys_visitNode expressive subqueryObeys inductionHypothesis id node

theorem Bond.Primitive.expressive
    {bond : Bond}
    (primitive : bond.Primitive) :
    bond.Expressive where
  lawful := primitive.lawful
  hold := primitive.hold
  path := primitive.visitPath
  parameter := primitive.visitParameter
  literal := primitive.visitLiteral
  within _ {entry} _ _ stepObeys := primitive.within entry stepObeys

/-! ## Visiting statements -/

/-- A bond that is obeyed inside expressions and across the border of a statement. -/
structure Bond.Complete (bond : Bond) (schema : Schema) : Prop extends bond.Expressive where
  statement : ∀ {expression id}, (∀ id, Obeys bond (expression id)) ->
    Obeys bond (enterStatement schema expression id)

/-- A bond that holds and records obey, and that the visit of the sources of a statement obeys. -/
structure Bond.Elementary (bond : Bond) (schema : Schema) : Prop extends bond.Primitive where
  sources : ∀ {id statement} {walk : Walk}, walk.tree.statement id = .ok statement ->
    ObeysAt bond (visitSources schema id statement) walk

theorem Bond.Primitive.visitBody_at
    {bond : Bond}
    {schema : Schema}
    {expression : NodeId -> Walking Unit}
    {id : NodeId}
    {statement : Statement}
    {walk : Walk}
    (primitive : bond.Primitive)
    (expressionObeys : ∀ id, Obeys bond (expression id))
    (sources : ∀ next : Walk, next.tree = walk.tree ->
      ObeysAt bond (visitSources schema id statement) next) :
    ObeysAt bond (visitBody schema expression id statement) walk := by
  have lawful := primitive.lawful
  have moves : ∀ change : Walk -> Walk, (∀ walk : Walk, walk.Retains (change walk)) ->
      Obeys bond (modify change : Walking PUnit) := fun change retains =>
    primitive.records fun walk => retains walk
  refine ObeysAt.bind lawful
    (moves (fun walk => walk.opening id) (fun _ => ⟨rfl, rfl, rfl, rfl⟩) walk) ?_
  intro _ opened opens
  cases opens
  refine ObeysAt.bind lawful (sources _ rfl) fun _ declared _ => ?_
  refine Obeys.bind lawful (Obeys.forM lawful fun clause _ => primitive.within _ ?_)
    (fun _ => moves Walk.closing fun _ => ⟨rfl, rfl, rfl, rfl⟩) declared
  exact Obeys.bind lawful (primitive.clauseItems statement clause) fun items =>
    Obeys.forM lawful fun item _ => expressionObeys item

theorem Bond.Elementary.complete
    {bond : Bond}
    {schema : Schema}
    (elementary : bond.Elementary schema) :
    bond.Complete schema where
  toExpressive := elementary.expressive
  statement {expression id} expressionObeys := by
    have lawful := elementary.lawful
    refine Obeys.bind lawful lawful.done_refl fun walk => ?_
    by_cases isOpen : id ∈ walk.enclosing
    · simp only [if_pos isOpen]
      exact Obeys.throw lawful fun _ => nofun
    simp only [if_neg isOpen]
    refine Obeys.bind lawful (elementary.hold id) fun _ walk => ?_
    refine ObeysAt.bind lawful (Obeys.read lawful _ walk) fun statement next reads => ?_
    obtain ⟨found, rfl⟩ := read_eq_ok.mp reads
    refine elementary.within_at fun entered same => ?_
    refine elementary.visitBody_at expressionObeys fun opened again => elementary.sources ?_
    rw [again, same]
    exact found

theorem obeys_visitStatement
    {bond : Bond}
    {schema : Schema}
    (complete : bond.Complete schema)
    (bound fuel : Nat)
    (id : NodeId) :
    Obeys bond (visitStatement schema bound fuel id) := by
  induction fuel generalizing id with
  | zero => exact Obeys.throw complete.lawful fun _ => nofun
  | succ fuel inductionHypothesis =>
      rw [visitStatement_succ]
      exact complete.statement
        (obeys_visitExpression complete.toExpressive inductionHypothesis bound)

theorem obeys_walkTree
    {bond : Bond}
    {schema : Schema}
    (complete : bond.Complete schema) :
    Obeys bond (walkTree schema) := by
  refine Obeys.bind complete.lawful complete.lawful.done_refl fun walk => ?_
  exact obeys_visitStatement complete _ _ Tree.top

end Walking
end QueryGraph
