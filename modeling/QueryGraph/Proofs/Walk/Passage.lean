import Mathlib.Data.List.Perm.Subperm
import QueryGraph.Proofs.Walk.Readiness
import QueryGraph.Proofs.Walk.Records

/-!
# The passage of a walk

A walk follows the visits that the nodes of its tree lay down. It enters the statements in the
order of their first visits, meets the placeholders that are visited, and ends where it began.
-/

namespace QueryGraph

open Operation

namespace Itinerary

variable {plan : Itinerary} {before after walk : Walk} {id : NodeId}

/-! ## Following the visits -/

/-- A walk that has followed some visits and recorded what they leave, and stands inside some
entries of the path stack and some open statements. -/
structure Follows
    (plan : Itinerary)
    (stack : List StackEntry)
    (enclosing : List NodeId)
    (seen : List Visit)
    (walk : Walk) : Prop extends plan.Ready enclosing walk where
  primary : ∃ allocated, walk.allocator.mode = .primary allocated
  stack : walk.allocator.stack = stack
  enclosing : walk.enclosing = enclosing
  entered : walk.entered = plan.tree.entered seen
  named : ∀ {name id}, (name, id) ∈ walk.parameters.named -> ∃ visit ∈ seen, visit.node = id ∧
    plan.tree.node? id = some (.parameter (some name))
  records : walk.Records (plan.tree.marks seen)

variable {stack : List StackEntry} {enclosing : List NodeId} {seen visits more : List Visit}
  {step : Walking Unit}

/-- A step that follows some visits, wherever the tree has them next, and ends where it began. -/
def Passes
    (plan : Itinerary)
    (stack : List StackEntry)
    (enclosing : List NodeId)
    (visits : List Visit)
    (step : Walking Unit) : Prop :=
  ∀ seen walk, plan.Follows stack enclosing seen walk -> seen ++ visits <+: plan.tree.visits ->
    Ends (fun _ after => plan.Follows stack enclosing (seen ++ visits) after)
      (plan.tree.Permits plan.owner) (step walk)

theorem Passes.bind
    {rest : Walking Unit}
    (first : plan.Passes stack enclosing visits step)
    (next : plan.Passes stack enclosing more rest) :
    plan.Passes stack enclosing (visits ++ more) (step >>= fun _ => rest) := by
  intro seen walk follows ahead
  rw [← List.append_assoc] at ahead ⊢
  refine Ends.bind ((first seen walk follows ((List.prefix_append _ more).trans ahead)).imp ?_
    fun _ same => same)
  exact fun _ between followsBetween => next _ between followsBetween ahead

theorem Passes.forM
    {action : α -> Walking Unit}
    {below : α -> List Visit}
    {items : List α}
    (each : ∀ item ∈ items, plan.Passes stack enclosing (below item) (action item)) :
    plan.Passes stack enclosing (items.flatMap below) (items.forM action) := by
  induction items with
  | nil =>
      intro seen walk follows _
      rw [List.flatMap_nil, List.append_nil]
      exact follows
  | cons item items inductionHypothesis =>
      exact (each item List.mem_cons_self).bind
        (inductionHypothesis fun other member => each other (List.mem_cons_of_mem item member))

/-- The positional placeholders that were met are those among the visits. -/
theorem Follows.anonymous
    (follows : plan.Follows stack enclosing seen walk) :
    walk.parameters.anonymous = plan.tree.anonymous seen :=
  follows.records.anonymous.trans (plan.tree.filterMap_marks_anonymous seen)

theorem Follows.of_quiet
    (follows : plan.Follows stack enclosing seen before)
    (ready : plan.Ready enclosing after)
    (stays : before.Stays after)
    (passive : before.Passive after) :
    plan.Follows stack enclosing seen after where
  toReady := ready
  primary := by
    rw [stays.allocator]
    exact follows.primary
  stack := by rw [stays.allocator, follows.stack]
  enclosing := stays.enclosing.trans follows.enclosing
  entered := by
    rw [← follows.entered]
    unfold Walk.entered
    rw [passive.statementRoots]
  named member := by
    rw [passive.parameters] at member
    exact follows.named member
  records := follows.records.of_eq (by rw [stays.allocator]) passive.literals passive.parameters

theorem Follows.ends_hold
    (follows : plan.Follows stack enclosing seen walk)
    (present : id.index < plan.tree.size) :
    Ends (fun _ after => plan.Follows stack enclosing seen after) (plan.tree.Permits plan.owner)
      (Walking.hold id walk) := by
  have ends := follows.toReady.ends_hold present
  refine Ends.of_done (ends.imp (fun _ _ _ => trivial) fun _ same => same) fun _ after done => ?_
  exact follows.of_quiet (ends.of_ok done) (Walking.stays_of_hold done)
    (Walking.passive_of_hold done)

theorem Follows.ends_holdAll
    {ids : List NodeId}
    (follows : plan.Follows stack enclosing seen walk)
    (present : ∀ id ∈ ids, id.index < plan.tree.size) :
    Ends (fun _ after => plan.Follows stack enclosing seen after) (plan.tree.Permits plan.owner)
      (Walking.holdAll ids walk) :=
  Ends.forM (plan.Follows stack enclosing seen)
    (fun id member _ follows => follows.ends_hold (present id member)) follows

/-- A walk that goes on to a visit, where it may record something. -/
theorem Follows.advance
    {visit : Visit}
    {allocator : PathAllocator}
    {parameters : ParameterRegistry}
    {literals : List (NodeId × Literal)}
    (follows : plan.Follows stack enclosing seen walk)
    (noStatement : plan.tree.isStatement visit.node = false)
    (primary : ∃ allocated, allocator.mode = .primary allocated)
    (sameStack : allocator.stack = stack)
    (named : ∀ entry ∈ parameters.named, entry ∈ walk.parameters.named ∨
      visit.node = entry.2 ∧ plan.tree.node? entry.2 = some (.parameter (some entry.1)))
    (records : Walk.Records
      { walk with allocator := allocator, parameters := parameters, literals := literals }
      (plan.tree.marks (seen ++ [visit]))) :
    plan.Follows stack enclosing (seen ++ [visit])
      { walk with allocator := allocator, parameters := parameters, literals := literals } where
  declares := ⟨follows.declares.nodes, follows.declares.sound, follows.declares.complete⟩
  owner := follows.owner
  raised := follows.raised
  opened := follows.opened
  primary := primary
  stack := sameStack
  enclosing := follows.enclosing
  entered := (follows.entered : walk.entered = _).trans
    (Tree.entered_append_of_not noStatement).symm
  named member := by
    rcases named _ member with old | ⟨same, found⟩
    · obtain ⟨first, firstSeen, place⟩ := follows.named old
      exact ⟨first, List.mem_append_left _ firstSeen, place⟩
    · exact ⟨visit, List.mem_append_right _ List.mem_cons_self, same, found⟩
  records := records

/-- What is no statement and leaves no mark is passed by. -/
theorem Follows.pass
    {visit : Visit}
    (follows : plan.Follows stack enclosing seen walk)
    (noStatement : plan.tree.isStatement visit.node = false)
    (unmarked : plan.tree.mark? visit.node = none) :
    plan.Follows stack enclosing (seen ++ [visit]) walk := by
  refine follows.advance noStatement follows.primary follows.stack (fun _ => Or.inl) ?_
  rw [Tree.marks_append_singleton, unmarked, Option.toList_none, List.append_nil]
  exact follows.records

/-- The stack may be exchanged. -/
theorem Follows.withStack
    (follows : plan.Follows stack enclosing seen walk)
    (other : List StackEntry) :
    plan.Follows other enclosing seen
      { walk with allocator := { walk.allocator with stack := other } } where
  declares := ⟨follows.declares.nodes, follows.declares.sound, follows.declares.complete⟩
  owner := follows.owner
  raised := follows.raised
  opened := follows.opened
  primary := follows.primary
  stack := rfl
  enclosing := follows.enclosing
  entered := follows.entered
  named := follows.named
  records := follows.records.of_eq rfl rfl rfl

/-! ## Inside an entry -/

/-- A step inside an entry of the stack ends outside of it. -/
theorem Passes.within
    {entry : StackEntry}
    (pushes : PathAllocator.pushFault? entry stack.head? = none)
    (inside : plan.Passes (entry :: stack) enclosing visits step) :
    plan.Passes stack enclosing visits (Walking.within entry step) := by
  intro seen walk follows ahead
  have pushed : Walking.onAllocator (PathAllocator.push entry) walk =
      .ok () (walk.entering entry) := by
    refine Walking.onAllocator_eq_ok.mpr ⟨_, Walking.push_eq_ok.mpr ⟨?_, rfl⟩, rfl⟩
    unfold PathAllocator.peek
    rw [follows.stack]
    exact pushes
  have entered : plan.Follows (entry :: stack) enclosing seen (walk.entering entry) := by
    have same := follows.withStack (entry :: stack)
    unfold Walk.entering
    rwa [follows.stack]
  refine Ends.bind_ok pushed (Ends.bind ((inside seen _ entered ahead).imp ?_ fun _ same => same))
  intro _ after follows
  have popped : Walking.onAllocator PathAllocator.pop after =
      .ok entry { after with allocator := { after.allocator with stack := stack } } := by
    refine Walking.onAllocator_eq_ok.mpr ⟨_, Walking.pop_eq_ok.mpr ⟨follows.stack, ?_⟩, rfl⟩
    rw [follows.stack]
    rfl
  exact Ends.bind_ok popped (follows.withStack stack)

/-- A place inside a clause, where an expression may stand. -/
def Inside (stack : List StackEntry) : Prop :=
  ∃ entry around, stack = entry :: around ∧ entry.isStatement = false

theorem Inside.pushFault?_node
    (inside : Inside stack)
    (id : NodeId) :
    PathAllocator.pushFault? (.node id) stack.head? = none := by
  obtain ⟨entry, around, rfl, inClause⟩ := inside
  simp [PathAllocator.pushFault?, inClause]

theorem Inside.pushFault?_compound
    (inside : Inside stack)
    (id : NodeId) :
    PathAllocator.pushFault? (.compound id) stack.head? = none := by
  obtain ⟨entry, around, rfl, inClause⟩ := inside
  simp [PathAllocator.pushFault?, inClause]

theorem Inside.pushFault?_subquery
    (inside : Inside stack)
    (id : NodeId) :
    PathAllocator.pushFault? (.statement id .subquery) stack.head? = none := by
  obtain ⟨entry, around, rfl, inClause⟩ := inside
  simp [PathAllocator.pushFault?, StatementKind.isTopLevel, inClause]

/-! ## Expressions -/

theorem Passes.cons
    {visit : Visit}
    (noStatement : plan.tree.isStatement visit.node = false)
    (unmarked : plan.tree.mark? visit.node = none)
    (rest : plan.Passes stack enclosing visits step) :
    plan.Passes stack enclosing (visit :: visits) step := by
  intro seen walk follows ahead
  rw [List.append_cons] at ahead ⊢
  exact rest _ walk (follows.pass noStatement unmarked) ahead

/-- The occurrence of a path is recorded where the statement of its source is open. -/
theorem passes_visitPath
    (orderly : plan.tree.Orderly)
    (isPathLike : plan.tree.HasPathLike id)
    (inside : Inside stack) :
    plan.Passes stack enclosing [⟨id, enclosing⟩] (Walking.visitPath id) := by
  refine Passes.within (inside.pushFault?_node id) fun seen walk follows ahead => ?_
  have visited : Visit.mk id enclosing ∈ plan.tree.visits :=
    ahead.subset (List.mem_append_right _ List.mem_cons_self)
  obtain ⟨node, found, pathLike⟩ := isPathLike
  have nodes := follows.declares.nodes
  have isPathLikeHere : walk.tree.HasPathLike id := by
    refine ⟨node, ?_, pathLike⟩
    rw [Tree.node?_eq_of_nodes nodes, found]
  obtain ⟨chain, read, present⟩ :=
    (orderly.placed.of_nodes nodes).exists_pathChain isPathLikeHere
  have sameSize : walk.tree.size = plan.tree.size := by
    unfold Tree.size
    rw [nodes]
  obtain ⟨source, sameStatement, readThere⟩ :=
    (Tree.Matches.of_nodes nodes.symm []).evolves.pathChain read
  refine Ends.bind_ok (Walking.read_eq_ok.mpr ⟨read, rfl⟩) (Ends.bind ((follows.ends_holdAll
    fun other member => ?_).imp ?_ fun _ same => same))
  · rw [← sameSize]
    exact present other member
  intro _ held follows
  refine Ends.bind_ok (get_apply held) ?_
  rw [follows.enclosing]
  by_cases isOpen : chain.source.statement ∈ enclosing
  · simp only [if_neg (not_not_intro isOpen)]
    obtain ⟨allocated, primary⟩ := follows.primary
    have recorded := (Walking.allocate_eq_ok primary).mpr ⟨id, stack, follows.stack, rfl, rfl⟩
    refine Ends.bind_ok (Walking.onAllocator_eq_ok.mpr ⟨_, recorded, rfl⟩) ?_
    have marked : plan.tree.mark? id = some (.path id) := Tree.mark?_of_isPathLike found pathLike
    refine follows.advance ?_ ⟨_, rfl⟩ follows.stack (fun _ => Or.inl) ?_
    · unfold Tree.isStatement
      simp only [found]
      cases node with
      | statement body => cases pathLike
      | _ => rfl
    · rw [Tree.marks_append_singleton, marked]
      have identities : held.allocator.identities = allocated := by
        unfold PathAllocator.identities
        rw [primary]
      refine follows.records.path ?_
      rw [identities]
      exact List.map_append
  · simp only [if_pos isOpen]
    rw [← sameStatement] at isOpen
    exact .path _ visited readThere isOpen

/-- A name is recorded unless another placeholder has it. -/
theorem Follows.ends_registerNamed
    {name : String}
    (follows : plan.Follows stack enclosing seen walk)
    (ahead : seen ++ [⟨id, enclosing⟩] <+: plan.tree.visits)
    (found : plan.tree.node? id = some (.parameter (some name))) :
    Ends (fun _ after => plan.Follows stack enclosing (seen ++ [⟨id, enclosing⟩]) after)
      (plan.tree.Permits plan.owner)
      (Walking.onParameters (ParameterRegistry.registerNamed name id) walk) := by
  have marks : plan.tree.marks (seen ++ [⟨id, enclosing⟩]) =
      plan.tree.marks seen ++ [.named name] := by
    rw [Tree.marks_append_singleton, Tree.mark?, found]
    rfl
  have noStatement : plan.tree.isStatement id = false := by
    unfold Tree.isStatement
    simp only [found]
  unfold Walking.onParameters
  rw [ParameterRegistry.registerNamed_apply]
  cases known : walk.parameters.node? name with
  | none =>
      refine follows.advance noStatement follows.primary follows.stack (fun entry member => ?_) ?_
      · rcases List.mem_append.mp member with old | last
        · exact Or.inl old
        · cases List.mem_singleton.mp last
          exact Or.inr ⟨rfl, found⟩
      · rw [marks]
        refine follows.records.named_parameter ?_
        rw [if_neg (Entries.lookup_eq_none_iff.mp known), List.map_append]
        rfl
  | some first =>
      have listed : (name, first) ∈ walk.parameters.named := Entries.mem_of_lookup known
      simp only
      by_cases same : first = id
      · simp only [if_pos same]
        refine follows.advance noStatement follows.primary follows.stack (fun _ => Or.inl) ?_
        rw [marks]
        refine follows.records.named_parameter ?_
        rw [if_pos (List.mem_map_of_mem listed)]
      · simp only [if_neg same]
        obtain ⟨visit, visitSeen, rfl, firstFound⟩ := follows.named listed
        have firstVisited : Visit.mk visit.node visit.enclosing ∈ plan.tree.visits :=
          ahead.subset (List.mem_append_left _ visitSeen)
        have visited : Visit.mk id enclosing ∈ plan.tree.visits :=
          ahead.subset (List.mem_append_right _ List.mem_cons_self)
        exact .conflict firstVisited visited firstFound found same

/-- A positional placeholder is recorded unless it was met before. -/
theorem Follows.ends_registerAnonymous
    (follows : plan.Follows stack enclosing seen walk)
    (ahead : seen ++ [⟨id, enclosing⟩] <+: plan.tree.visits)
    (found : plan.tree.node? id = some (.parameter none)) :
    Ends (fun _ after => plan.Follows stack enclosing (seen ++ [⟨id, enclosing⟩]) after)
      (plan.tree.Permits plan.owner)
      (Walking.onParameters (ParameterRegistry.registerAnonymous id) walk) := by
  unfold Walking.onParameters
  rw [ParameterRegistry.registerAnonymous_apply]
  by_cases known : id ∈ walk.parameters.anonymous
  · simp only [if_pos known]
    refine .reuse ?_
    -- The placeholder is among those met so far, and met again now.
    have isAnonymous : plan.tree.isAnonymous id = true := by simp [Tree.isAnonymous, found]
    have first : plan.tree.anonymous (seen ++ [⟨id, enclosing⟩]) <+:
        plan.tree.anonymous plan.tree.visits := Tree.anonymous_prefix ahead
    have again := first.sublist.count_le id
    rw [Tree.anonymous_append_singleton, if_pos isAnonymous, List.count_append,
      List.count_singleton_self] at again
    rw [follows.anonymous] at known
    have before := List.count_pos_iff.mpr known
    omega
  · simp only [if_neg known]
    have noStatement : plan.tree.isStatement id = false := by
      unfold Tree.isStatement
      simp only [found]
    refine follows.advance noStatement follows.primary follows.stack (fun _ => Or.inl) ?_
    rw [Tree.marks_append_singleton, Tree.mark?, found]
    exact follows.records.positional_parameter known

/-- A placeholder is recorded unless another one has its name, or it has no name and was met
before. -/
theorem passes_visitParameter
    {name : Option String}
    (found : plan.tree.node? id = some (.parameter name))
    (inside : Inside stack) :
    plan.Passes stack enclosing [⟨id, enclosing⟩] (Walking.visitParameter id name) := by
  refine Passes.within (inside.pushFault?_node id) fun seen walk follows ahead => ?_
  cases name with
  | some name => exact follows.ends_registerNamed ahead found
  | none =>
      refine Ends.bind ((follows.ends_registerAnonymous ahead found).imp ?_ fun _ same => same)
      exact fun _ _ follows => follows

/-- The occurrence of a constant is recorded. -/
theorem passes_visitLiteral
    {value : Literal}
    (found : plan.tree.node? id = some (.literal value))
    (inside : Inside stack) :
    plan.Passes stack enclosing [⟨id, enclosing⟩] (Walking.visitLiteral id value) := by
  refine Passes.within (inside.pushFault?_node id) fun seen walk follows _ => ?_
  have marked : plan.tree.mark? id = some (.literal id value) := by
    rw [Tree.mark?, found]
    rfl
  refine follows.advance ?_ follows.primary follows.stack (fun _ => Or.inl) ?_
  · unfold Tree.isStatement
    simp only [found]
  · rw [Tree.marks_append_singleton, marked]
    exact follows.records.literal id value

/-- What happens to a held node follows the visits to it and to its parts, given that this is so
for the parts. -/
theorem passes_visitContents
    {expression : NodeId -> Walking Unit}
    {below : NodeId -> List Visit}
    {node : Node}
    (orderly : plan.tree.Orderly)
    (isItem : plan.tree.HasItem id)
    (found : plan.tree.node? id = some node)
    (noStatement : plan.tree.isStatement id = false)
    (inside : Inside stack)
    (parts : ∀ part ∈ node.parts, ∀ {around}, Inside around ->
      plan.Passes around enclosing (below part) (expression part)) :
    plan.Passes stack enclosing (⟨id, enclosing⟩ :: node.parts.flatMap below)
      (Walking.visitContents expression id node) := by
  have compound {entry : StackEntry} (inClause : entry.isStatement = false) :
      Inside (entry :: stack) := ⟨entry, stack, rfl, inClause⟩
  have unmarked (none : node.mark? id = none) : plan.tree.mark? id = .none := by
    rw [Tree.mark?, found]
    exact none
  cases node with
  | statement body => simp [Tree.isStatement, found] at noStatement
  | source body => exact passes_visitPath orderly ⟨_, found, rfl⟩ inside
  | path parent field => exact passes_visitPath orderly ⟨_, found, rfl⟩ inside
  | treat target asType => exact passes_visitPath orderly ⟨_, found, rfl⟩ inside
  | fetch body =>
      rcases isItem with ⟨other, again, contrary⟩ | ⟨_, _, again⟩ | ⟨_, _, again⟩
      · rw [found] at again
        cases again
        cases contrary
      · rw [found] at again
        cases again
      · rw [found] at again
        cases again
  | parameter name => exact passes_visitParameter found inside
  | literal value => exact passes_visitLiteral found inside
  | expression operator operands =>
      refine Passes.cons noStatement (unmarked rfl) ?_
      by_cases isTuple : operator = .tuple
      · simp only [Walking.visitContents, if_pos isTuple]
        exact Passes.within (inside.pushFault?_compound id)
          (Passes.forM fun operand member => parts operand member (compound rfl))
      · simp only [Walking.visitContents, if_neg isTuple]
        exact Passes.within (inside.pushFault?_node id)
          (Passes.forM fun operand member => parts operand member (compound rfl))
  | order ordered ascending =>
      refine Passes.cons noStatement (unmarked rfl) ?_
      refine Passes.within (inside.pushFault?_node id) ?_
      change plan.Passes _ enclosing (below ordered ++ []) (expression ordered)
      rw [List.append_nil]
      exact parts ordered List.mem_cons_self (compound rfl)
  | assignment target value =>
      refine Passes.cons noStatement (unmarked rfl) ?_
      refine Passes.within (inside.pushFault?_node id) ?_
      change plan.Passes _ enclosing (below target ++ (below value ++ [])) _
      rw [List.append_nil]
      exact (parts target List.mem_cons_self (compound rfl)).bind
        (parts value (List.mem_cons_of_mem _ List.mem_cons_self) (compound rfl))

/-- The visit of an expression follows the visits below it, given that this is so for
subqueries. -/
theorem passes_visitExpression
    {subquery : NodeId -> Walking Unit}
    {below : NodeId -> List Visit}
    {fuel : Nat}
    (orderly : plan.tree.Orderly)
    (subqueries : ∀ {id body}, plan.tree.node? id = some (.statement body) ->
      body.kind = .subquery -> ∀ {around}, Inside around ->
        plan.Passes around enclosing (below id) (subquery id))
    (isItem : plan.tree.HasItem id)
    (enough : id.index < fuel)
    (inside : Inside stack) :
    plan.Passes stack enclosing (plan.tree.visitsBelow below enclosing fuel id)
      (Walking.visitExpression subquery fuel id) := by
  induction fuel generalizing id stack with
  | zero => exact absurd enough (Nat.not_lt_zero _)
  | succ fuel inductionHypothesis =>
      intro seen walk follows ahead
      have present : ∃ node, plan.tree.node? id = some node := by
        rcases isItem with ⟨node, found, -⟩ | ⟨_, _, found⟩ | ⟨_, _, found⟩ <;>
          exact ⟨_, found⟩
      obtain ⟨node, found⟩ := present
      have foundHere : walk.tree.node? id = some node := by
        rw [Tree.node?_eq_of_nodes follows.declares.nodes, found]
      rw [Walking.visitExpression_succ]
      refine Ends.bind_ok (Walking.read_eq_ok.mpr ⟨Tree.node_eq_ok.mpr foundHere, rfl⟩) ?_
      have contents (noStatement : plan.tree.isStatement id = false)
          (visits : plan.tree.visitsBelow below enclosing (fuel + 1) id = ⟨id, enclosing⟩ ::
            node.parts.flatMap (plan.tree.visitsBelow below enclosing fuel)) :
          Ends (fun _ after => plan.Follows stack enclosing
              (seen ++ plan.tree.visitsBelow below enclosing (fuel + 1) id) after)
            (plan.tree.Permits plan.owner) ((do
              Walking.hold id
              Walking.visitContents (Walking.visitExpression subquery fuel) id node :
                Walking Unit) walk) := by
        rw [visits] at ahead ⊢
        refine Ends.bind ((follows.ends_hold (Tree.lt_size_of_node? found)).imp ?_
          fun _ same => same)
        intro _ held follows
        refine passes_visitContents orderly isItem found noStatement inside ?_ seen held follows
          ahead
        intro part member around insideAround
        obtain ⟨older, isExpression⟩ := orderly.referring.parts found member
        exact inductionHypothesis (Or.inl isExpression) (by omega) insideAround
      cases node with
      | statement body =>
          have isSubquery : body.kind = .subquery := by
            rcases isItem with ⟨node, again, isExpression⟩ | ⟨_, _, again⟩ | ⟨_, _, again⟩
            · rw [found] at again
              cases again
              exact of_decide_eq_true isExpression
            · rw [found] at again
              cases again
            · rw [found] at again
              cases again
          have visits : plan.tree.visitsBelow below enclosing (fuel + 1) id = below id := by
            simp only [Tree.visitsBelow, found]
          rw [visits] at ahead ⊢
          simp only [Walking.visitNode, isSubquery, if_true]
          exact subqueries found isSubquery inside seen walk follows ahead
      | _ =>
          refine contents ?_ ?_
          · simp only [Tree.isStatement, found]
          · simp only [Tree.visitsBelow, found]

/-! ## Statements -/

theorem passes_visitClause
    {expression : NodeId -> Walking Unit}
    {below : NodeId -> List Visit}
    {body : Statement}
    {clause : Clause}
    {kind : StatementKind}
    {around : List StackEntry}
    (orderly : plan.tree.Orderly)
    (found : plan.tree.node? id = some (.statement body))
    (each : ∀ item ∈ plan.tree.items body clause, ∀ {around}, Inside around ->
      plan.Passes around enclosing (below item) (expression item)) :
    plan.Passes (.statement id kind :: around) enclosing
      ((plan.tree.items body clause).flatMap below)
      (Walking.visitClause expression body clause) := by
  refine Passes.within rfl fun seen walk follows ahead => ?_
  refine Ends.bind_ok (Walking.clauseItems_eq_ok orderly follows.declares.nodes found) ?_
  exact Passes.forM (fun item member => each item member ⟨_, _, rfl, rfl⟩) seen walk follows ahead

/-- A statement that is not open is entered when its sources are. -/
theorem Follows.enter
    {body : Statement}
    (follows : plan.Follows stack enclosing seen before)
    (found : plan.tree.node? id = some (.statement body))
    (ready : plan.Ready enclosing after)
    (done : Walking.visitSources plan.schema id body (before.opening id) = .ok () after) :
    plan.Follows stack (id :: enclosing) (seen ++ [⟨id, enclosing⟩]) after := by
  obtain ⟨stays, isEntered⟩ := Walking.stays_of_visitSources done
  obtain ⟨parameters, literals, entered⟩ := Walking.entered_of_visitSources done
  have isStatement : plan.tree.isStatement id = true := by
    unfold Tree.isStatement
    simp only [found]
  have unmarked : plan.tree.mark? id = none := by
    rw [Tree.mark?, found]
    rfl
  exact {
    declares := ready.declares
    owner := ready.owner
    raised := ready.raised
    opened := List.cons_subset.mpr ⟨isEntered, ready.opened⟩
    primary := by
      rw [stays.allocator]
      exact follows.primary
    stack := by
      rw [stays.allocator]
      exact follows.stack
    enclosing := by
      rw [stays.enclosing]
      exact congrArg _ follows.enclosing
    entered := by
      rw [entered, Tree.entered_append_of_isStatement isStatement, ← follows.entered]
      rfl
    named := by
      intro name other member
      rw [parameters] at member
      obtain ⟨visit, visitSeen, place⟩ := follows.named member
      exact ⟨visit, List.mem_append_left _ visitSeen, place⟩
    records := by
      rw [Tree.marks_append_singleton, unmarked, Option.toList_none, List.append_nil]
      exact follows.records.of_eq (by rw [stays.allocator]; rfl) literals parameters }

/-- The innermost statement may be closed. -/
theorem Follows.close
    (follows : plan.Follows stack (id :: enclosing) seen walk) :
    plan.Follows stack enclosing seen walk.closing where
  declares := ⟨follows.declares.nodes, follows.declares.sound, follows.declares.complete⟩
  owner := follows.owner
  raised := follows.raised
  opened := (List.cons_subset.mp follows.opened).2
  primary := follows.primary
  stack := follows.stack
  enclosing := congrArg List.tail follows.enclosing
  entered := follows.entered
  named := follows.named
  records := follows.records.of_eq rfl rfl rfl

/-- The visit of a statement that is not open follows the visits to what stands in its clauses. -/
theorem passes_visitBody
    {expression : NodeId -> Walking Unit}
    {subquery : NodeId -> List Visit}
    {bound : Nat}
    {body : Statement}
    (orderly : plan.tree.Orderly)
    (found : plan.tree.node? id = some (.statement body))
    (each : ∀ {item}, plan.tree.HasItem item -> ∀ {around}, Inside around ->
      plan.Passes around (id :: enclosing)
        (plan.tree.visitsBelow subquery (id :: enclosing) bound item) (expression item)) :
    plan.Passes (.statement id body.kind :: stack) enclosing
      (⟨id, enclosing⟩ :: plan.tree.visitsWithin subquery (id :: enclosing) bound body)
      (Walking.visitBody plan.schema expression id body) := by
  intro seen walk follows ahead
  have visited : Visit.mk id enclosing ∈ plan.tree.visits :=
    ahead.subset (List.mem_append_right _ List.mem_cons_self)
  rw [List.append_cons] at ahead ⊢
  have ready : plan.Ready enclosing (walk.opening id) := {
    declares := ⟨follows.declares.nodes, follows.declares.sound, follows.declares.complete⟩
    owner := follows.owner
    raised := follows.raised
    opened := follows.opened }
  have sources : Ends (fun _ after => plan.Ready enclosing after) (plan.tree.Permits plan.owner)
      (Walking.visitSources plan.schema id body (walk.opening id)) :=
    ready.ends_visitSources orderly visited found
  have declares : Ends (fun _ after => plan.Follows (.statement id body.kind :: stack)
      (id :: enclosing) (seen ++ [⟨id, enclosing⟩]) after) (plan.tree.Permits plan.owner)
      (Walking.visitSources plan.schema id body (walk.opening id)) :=
    Ends.of_done (sources.imp (fun _ _ _ => trivial) fun _ same => same) fun _ after done =>
      follows.enter found (sources.of_ok done) done
  have clauses : plan.Passes (.statement id body.kind :: stack) (id :: enclosing)
      (plan.tree.visitsWithin subquery (id :: enclosing) bound body)
      ((Walking.clauses body.kind).forM (Walking.visitClause expression body)) :=
    Passes.forM fun clause _ => passes_visitClause orderly found fun item member =>
      each (orderly.hasItem_of_mem_items found member)
  refine Ends.bind_ok (modify_apply _ walk) (Ends.bind (declares.imp ?_ fun _ same => same))
  intro _ declared follows
  refine Ends.bind ((clauses _ declared follows ahead).imp ?_ fun _ same => same)
  intro _ visited follows
  rw [modify_apply]
  exact follows.close

/-- The visit of a statement goes no further where the statement is open. -/
theorem passes_enterStatement
    {expression : NodeId -> Walking Unit}
    {subquery : NodeId -> List Visit}
    {bound : Nat}
    {body : Statement}
    (orderly : plan.tree.Orderly)
    (found : plan.tree.node? id = some (.statement body))
    (pushes : PathAllocator.pushFault? (.statement id body.kind) stack.head? = none)
    (each : id ∉ enclosing -> ∀ {item}, plan.tree.HasItem item -> ∀ {around}, Inside around ->
      plan.Passes around (id :: enclosing)
        (plan.tree.visitsBelow subquery (id :: enclosing) bound item) (expression item)) :
    plan.Passes stack enclosing
      (⟨id, enclosing⟩ :: if id ∈ enclosing then []
        else plan.tree.visitsWithin subquery (id :: enclosing) bound body)
      (Walking.enterStatement plan.schema expression id) := by
  intro seen walk follows ahead
  have visited : Visit.mk id enclosing ∈ plan.tree.visits :=
    ahead.subset (List.mem_append_right _ List.mem_cons_self)
  refine Ends.bind_ok (get_apply walk) ?_
  rw [follows.enclosing]
  by_cases isOpen : id ∈ enclosing
  · simp only [if_pos isOpen]
    exact .recursion visited isOpen
  simp only [if_neg isOpen] at ahead ⊢
  refine Ends.bind ((follows.ends_hold (Tree.lt_size_of_node? found)).imp ?_ fun _ same => same)
  intro _ held follows
  have foundHere : held.tree.statement id = .ok body := by
    rw [Tree.statement_eq_ok, Tree.node?_eq_of_nodes follows.declares.nodes, found]
  refine Ends.bind_ok (Walking.read_eq_ok.mpr ⟨foundHere, rfl⟩) ?_
  exact Passes.within pushes (passes_visitBody orderly found (each isOpen)) seen held follows ahead

/-- Distinct nodes of a tree are at most as many as its nodes. -/
theorem length_le_size
    {tree : Tree}
    (nodup : enclosing.Nodup)
    (present : ∀ id ∈ enclosing, id.index < tree.size) :
    enclosing.length ≤ tree.size := by
  have listed : enclosing ⊆ tree.ids := fun id member => Tree.mem_ids.mpr (present id member)
  have shorter := (List.subperm_of_subset nodup listed).length_le
  rwa [Tree.ids, List.length_map, List.length_range] at shorter

/-- The visit of a statement follows the visits to it and to everything in it. The open statements
are distinct, so there is fuel as long as there are nodes. -/
theorem passes_visitStatement
    {fuel : Nat}
    {body : Statement}
    (orderly : plan.tree.Orderly)
    (found : plan.tree.node? id = some (.statement body))
    (pushes : PathAllocator.pushFault? (.statement id body.kind) stack.head? = none)
    (nodup : enclosing.Nodup)
    (present : ∀ id ∈ enclosing, id.index < plan.tree.size)
    (enough : fuel + enclosing.length = plan.tree.size + 1) :
    plan.Passes stack enclosing (plan.tree.visitsOf (plan.tree.size + 1) fuel enclosing id)
      (Walking.visitStatement plan.schema (plan.tree.size + 1) fuel id) := by
  induction fuel generalizing id stack enclosing body with
  | zero =>
      have shorter := length_le_size nodup present
      omega
  | succ fuel inductionHypothesis =>
      have visits : plan.tree.visitsOf (plan.tree.size + 1) (fuel + 1) enclosing id =
          ⟨id, enclosing⟩ :: if id ∈ enclosing then []
            else plan.tree.visitsWithin
              (plan.tree.visitsOf (plan.tree.size + 1) fuel (id :: enclosing)) (id :: enclosing)
              (plan.tree.size + 1) body := by
        simp only [Tree.visitsOf, found]
      rw [visits, Walking.visitStatement_succ]
      refine passes_enterStatement orderly found pushes fun notOpen item isItem around inside => ?_
      have enoughForItem : item.index < plan.tree.size + 1 := by
        rcases isItem with ⟨_, isNode, -⟩ | ⟨_, _, isNode⟩ | ⟨_, _, isNode⟩ <;>
          exact Nat.lt_succ_of_lt (Tree.lt_size_of_node? isNode)
      refine passes_visitExpression orderly ?_ isItem enoughForItem inside
      intro other otherBody otherFound isSubquery around inside
      refine inductionHypothesis otherFound ?_ (List.nodup_cons.mpr ⟨notOpen, nodup⟩) ?_ ?_
      · rw [isSubquery]
        exact inside.pushFault?_subquery other
      · exact List.forall_mem_cons.mpr ⟨Tree.lt_size_of_node? found, present⟩
      · rw [List.length_cons]
        omega

/-- A walk from a top-level statement follows all visits, or is stopped by what is there at one of
them. -/
theorem ends_walkTree
    {body : Statement}
    (orderly : plan.tree.Orderly)
    (found : plan.tree.node? Tree.top = some (.statement body))
    (isTopLevel : body.kind.isTopLevel = true) :
    Ends (fun _ after => plan.Follows [] [] plan.tree.visits after)
      (plan.tree.Permits plan.owner)
      (Walking.walkTree plan.schema { tree := plan.tree, guard := { owner := plan.owner } }) := by
  have started : plan.Follows [] [] []
      { tree := plan.tree, guard := { owner := plan.owner } } := {
    declares := by
      refine ⟨rfl, ⟨?_, ?_⟩, ?_⟩
      · intro id vertex contrary
        cases contrary
      · intro id vertex contrary
        cases contrary
      · intro id body _ contrary
        cases contrary
    owner := rfl
    raised := Tree.Raised.refl plan.tree plan.owner
    opened := List.nil_subset _
    primary := ⟨[], rfl⟩
    stack := rfl
    enclosing := rfl
    entered := rfl
    named := fun contrary => by cases contrary
    records := ⟨rfl, rfl, rfl, rfl, List.nodup_nil⟩ }
  have pushes : PathAllocator.pushFault? (.statement Tree.top body.kind)
      ([] : List StackEntry).head? = none := by
    simp [PathAllocator.pushFault?, isTopLevel]
  exact passes_visitStatement orderly found pushes List.nodup_nil (List.forall_mem_nil _) rfl []
    _ started List.prefix_rfl

end Itinerary
end QueryGraph
