import QueryGraph.Proofs.Graph.Refusal
import QueryGraph.Proofs.Tree.Visits
import QueryGraph.Proofs.Walk.Scope

/-!
# Walks that end

A walk goes from an expression to what it consists of, which is older, and from an expression to a
subquery only while the subquery is not open. So the statements that are not open, together with
the age of the expression, become fewer with every step down, and a bound on the depth beyond the
number of nodes is no bound at all.
-/

namespace QueryGraph

open Operation

namespace Tree

/-- How many nodes are not among the open statements. -/
def unopened (tree : Tree) (enclosing : List NodeId) : Nat :=
  (tree.ids.filter (· ∉ enclosing)).length

theorem unopened_le (tree : Tree) (enclosing : List NodeId) :
    tree.unopened enclosing ≤ tree.size := by
  have bounded := List.length_filter_le (· ∉ enclosing) tree.ids
  unfold ids at bounded
  rwa [List.length_map, List.length_range] at bounded

/-- Opening a statement leaves fewer nodes. -/
theorem unopened_lt
    {tree : Tree}
    {enclosing : List NodeId}
    {id : NodeId}
    (present : tree.contains id = true)
    (isClosed : id ∉ enclosing) :
    tree.unopened (id :: enclosing) < tree.unopened enclosing := by
  have fewer : tree.ids.filter (· ∉ id :: enclosing) =
      (tree.ids.filter (· ∉ enclosing)).filter (· ≠ id) := by
    rw [List.filter_filter]
    exact List.filter_congr fun other _ => by simp [not_or]
  have isLeft : id ∈ tree.ids.filter (· ∉ enclosing) :=
    List.mem_filter.mpr ⟨mem_ids.mpr (contains_iff.mp present), decide_eq_true isClosed⟩
  unfold unopened
  rw [fewer]
  exact List.length_filter_lt_length_iff_exists.mpr ⟨id, isLeft, by simp⟩

end Tree

/-- A walk on the nodes of a tree that stands inside some open statements. -/
structure Walk.Amid
    (tree : Tree)
    (enclosing : List NodeId)
    (walk : Walk) : Prop where
  nodes : walk.tree.nodes = tree.nodes
  enclosing : walk.enclosing = enclosing

namespace Walk.Amid

variable {tree : Tree} {enclosing : List NodeId} {before after : Walk}

theorem of_stays
    (amid : before.Amid tree enclosing)
    (stays : before.Stays after) :
    after.Amid tree enclosing :=
  ⟨stays.nodes.trans amid.nodes, stays.enclosing.trans amid.enclosing⟩

end Walk.Amid

namespace Walking

/-! ## Steps that give up on nothing -/

/-- A step that stays inside the open statements and is never given up because it goes too deep. -/
def Settled
    (tree : Tree)
    (enclosing : List NodeId)
    (step : Walking α) : Prop :=
  ∀ walk, walk.Amid tree enclosing ->
    Ends (fun _ after => after.Amid tree enclosing) (· ≠ .unfounded) (step walk)

section Settled

variable {α β : Type} {schema : Schema} {tree : Tree} {enclosing : List NodeId}

theorem Settled.pure (value : α) : Settled tree enclosing (pure value : Walking α) :=
  fun _ amid => amid

theorem Settled.throw
    {error : CompileError}
    (founded : error ≠ .unfounded) :
    Settled tree enclosing (throw error : Walking α) :=
  fun _ _ => founded

theorem Settled.bind
    {first : Walking α}
    {rest : α -> Walking β}
    (settled : Settled tree enclosing first)
    (next : ∀ value, Settled tree enclosing (rest value)) :
    Settled tree enclosing (first >>= rest) :=
  fun walk amid => Ends.bind ((settled walk amid).imp
    (fun value between amid => next value between amid) fun _ same => same)

theorem Settled.forM
    {action : α -> Walking PUnit}
    {items : List α}
    (each : ∀ item ∈ items, Settled tree enclosing (action item)) :
    Settled tree enclosing (items.forM action) :=
  fun _ amid => Ends.forM (Walk.Amid tree enclosing) each amid

theorem Settled.mapM
    {action : α -> Walking β}
    {items : List α}
    (each : ∀ item ∈ items, Settled tree enclosing (action item)) :
    Settled tree enclosing (items.mapM action) :=
  fun _ amid => Ends.mapM (Walk.Amid tree enclosing) each amid

theorem settled_get : Settled tree enclosing (get : Walking Walk) := fun _ amid => amid

theorem settled_read (query : Tree -> Except TreeError α) :
    Settled tree enclosing (read query) := by
  refine settled_get.bind fun walk => ?_
  cases query walk.tree with
  | ok value => exact .pure value
  | error error => exact .throw nofun

theorem settled_hold (id : NodeId) : Settled tree enclosing (hold id) := by
  intro walk amid
  refine Ends.of_done ?_ fun _ after done => amid.of_stays (stays_of_hold done)
  unfold hold
  cases walk.guard.freeze id walk.tree with
  | ok guard held => trivial
  | error error held => exact nofun

theorem settled_holdAll (ids : List NodeId) : Settled tree enclosing (holdAll ids) :=
  .forM fun id _ => settled_hold id

theorem settled_onAllocator
    {action : EStateM CompileError PathAllocator α}
    (fails : ∀ before, Ends (fun _ _ => True) CompileError.FailsRecord (action before)) :
    Settled tree enclosing (onAllocator action) := by
  intro walk amid
  have ends := fails walk.allocator
  unfold onAllocator
  cases result : action walk.allocator with
  | ok value allocator => exact ⟨amid.nodes, amid.enclosing⟩
  | error error allocator =>
      rintro rfl
      cases ends.of_error result

theorem settled_onParameters
    {action : EStateM CompileError ParameterRegistry α}
    (fails : ∀ before, Ends (fun _ _ => True) CompileError.FailsRecord (action before)) :
    Settled tree enclosing (onParameters action) := by
  intro walk amid
  have ends := fails walk.parameters
  unfold onParameters
  cases result : action walk.parameters with
  | ok value parameters => exact ⟨amid.nodes, amid.enclosing⟩
  | error error parameters =>
      rintro rfl
      cases ends.of_error result

theorem settled_push (entry : StackEntry) :
    Settled tree enclosing (onAllocator (PathAllocator.push entry)) :=
  settled_onAllocator (PathAllocator.failsRecord_push entry)

theorem settled_pop : Settled tree enclosing (onAllocator PathAllocator.pop) :=
  settled_onAllocator PathAllocator.failsRecord_pop

theorem settled_visitPath (id : NodeId) : Settled tree enclosing (visitPath id) := by
  refine (settled_push _).bind fun _ => .bind ?_ fun _ => settled_pop.bind fun _ => .pure ()
  refine (settled_read _).bind fun chain => (settled_holdAll _).bind fun _ => ?_
  refine settled_get.bind fun walk => ?_
  by_cases outside : chain.source.statement ∉ walk.enclosing
  · simp only [if_pos outside]
    exact .throw nofun
  · simp only [if_neg outside]
    exact (settled_onAllocator PathAllocator.failsRecord_allocate).bind fun _ => .pure ()

theorem settled_visitParameter
    (id : NodeId)
    (name : Option String) :
    Settled tree enclosing (visitParameter id name) := by
  refine (settled_push _).bind fun _ => .bind ?_ fun _ => settled_pop.bind fun _ => .pure ()
  cases name with
  | some name => exact settled_onParameters (ParameterRegistry.failsRecord_registerNamed name id)
  | none =>
      exact (settled_onParameters (ParameterRegistry.failsRecord_registerAnonymous id)).bind
        fun _ => .pure ()

theorem settled_visitLiteral
    (id : NodeId)
    (value : Literal) :
    Settled tree enclosing (visitLiteral id value) := by
  refine (settled_push _).bind fun _ => .bind ?_ fun _ => settled_pop.bind fun _ => .pure ()
  exact fun walk amid => ⟨amid.nodes, amid.enclosing⟩

/-! ## Entering the sources of a statement -/

theorem founded_of_failsDeclaration
    {error : CompileError}
    (fails : error.FailsDeclaration) :
    error ≠ .unfounded := by
  rintro rfl
  rcases fails with lookup | merge
  · cases lookup
  · cases merge

theorem settled_visitRoot
    {statement root : NodeId}
    (placed : tree.Placed)
    (isFirst : Bool)
    (isRoot : tree.HasRoot statement root) :
    Settled tree enclosing (visitRoot schema isFirst root) := by
  intro walk amid
  refine Ends.of_done ?_ fun _ after done => amid.of_stays (stays_of_visitRoot done)
  unfold visitRoot
  cases read : walk.tree.sourceTree root with
  | error error =>
      rw [bind_of_error (read_of_refused read)]
      exact nofun
  | ok source =>
      refine Ends.bind_ok (read_eq_ok.mpr ⟨read, rfl⟩) ?_
      refine Ends.bind ((settled_holdAll source.ids walk amid).imp ?_ fun _ same => same)
      intro _ held _
      cases isFirst with
      | false => trivial
      | true =>
          have readFrom : source.ReadFrom walk.tree := SourceTree.readFrom_of_ofNode read
          have sameId : source.id = root := SourceTree.id_of_ofNode read
          have isRootHere : walk.tree.HasRoot statement source.id := by
            obtain ⟨body, recordType, found, kind, here⟩ := isRoot
            rw [sameId]
            exact ⟨body, recordType, (Tree.node?_eq_of_nodes amid.nodes root).trans found, kind,
              here⟩
          have built : Ends (fun _ _ => True) CompileError.FailsDeclaration
              (Graphing.buildRoot schema source held.sources) :=
            Graphing.refusal_buildRoot (placed.of_nodes amid.nodes) readFrom isRootHere
          refine Ends.bind ?_
          unfold onSources
          cases result : Graphing.buildRoot schema source held.sources with
          | ok vertex sources => trivial
          | error error sources => exact founded_of_failsDeclaration (built.of_error result)

theorem settled_visitCorrelation (statement correlated : NodeId) :
    Settled tree enclosing (visitCorrelation statement correlated) := by
  refine (settled_hold correlated).bind fun _ => (settled_read _).bind fun outer => ?_
  refine settled_get.bind fun walk => ?_
  cases walk.sources.declared.find? outer with
  | none => exact .throw nofun
  | some vertex => exact fun _ amid => ⟨amid.nodes, amid.enclosing⟩

theorem settled_visitSources
    {id : NodeId}
    {statement : Statement}
    (orderly : tree.Orderly)
    (found : tree.node? id = some (.statement statement)) :
    Settled tree enclosing (visitSources schema id statement) := by
  have refers : tree.StatementRefers id statement := orderly.referring id _ found
  refine settled_get.bind fun walk => ?_
  by_cases empty : (statement.roots.isEmpty && statement.correlations.isEmpty) = true
  · simp only [if_pos empty]
    exact .throw nofun
  simp only [if_neg empty]
  refine Settled.bind (.mapM fun root member =>
    settled_visitRoot orderly.placed _ (refers.roots root member)) fun roots => ?_
  refine Settled.bind (.forM fun correlated _ =>
    settled_visitCorrelation id correlated) fun _ => ?_
  split
  · exact fun _ amid => ⟨amid.nodes, amid.enclosing⟩
  · exact .pure ()

end Settled

/-! ## Two steps that coincide -/

/-- Two steps that do the same to a walk, leave it inside some open statements, and are never given
up because they go too deep. -/
def CoincideAt
    (tree : Tree)
    (enclosing : List NodeId)
    (first second : Walking α)
    (walk : Walk) : Prop :=
  first walk = second walk ∧
    Ends (fun _ after => after.Amid tree enclosing) (· ≠ .unfounded) (first walk)

/-- Two steps that coincide inside some open statements. -/
def Coincide
    (tree : Tree)
    (enclosing : List NodeId)
    (first second : Walking α) : Prop :=
  ∀ walk, walk.Amid tree enclosing -> CoincideAt tree enclosing first second walk

section Coincide

variable {α β : Type} {schema : Schema} {tree : Tree} {enclosing inner : List NodeId}
  {id : NodeId} {walk : Walk}

theorem Settled.coincide
    {step : Walking α}
    (settled : Settled tree enclosing step) :
    Coincide tree enclosing step step :=
  fun walk amid => ⟨rfl, settled walk amid⟩

theorem Coincide.settled
    {step : Walking α}
    (coincide : Coincide tree enclosing step step) :
    Settled tree enclosing step :=
  fun walk amid => (coincide walk amid).2

theorem CoincideAt.bind
    {first second : Walking α}
    {rest other : α -> Walking β}
    (coincide : CoincideAt tree inner first second walk)
    (next : ∀ value between, first walk = .ok value between -> between.Amid tree inner ->
      CoincideAt tree enclosing (rest value) (other value) between) :
    CoincideAt tree enclosing (first >>= rest) (second >>= other) walk := by
  obtain ⟨same, ends⟩ := coincide
  unfold CoincideAt
  rw [bind_apply, bind_apply, ← same]
  cases done : first walk with
  | ok value between =>
      rw [done] at ends
      exact next value between done ends
  | error error between =>
      rw [done] at ends
      exact ⟨rfl, ends⟩

theorem Coincide.bind
    {first second : Walking α}
    {rest other : α -> Walking β}
    (coincide : Coincide tree enclosing first second)
    (next : ∀ value, Coincide tree enclosing (rest value) (other value)) :
    Coincide tree enclosing (first >>= rest) (second >>= other) :=
  fun walk amid => (coincide walk amid).bind fun value between _ amid => next value between amid

theorem Coincide.forM
    {first second : α -> Walking PUnit}
    {items : List α}
    (each : ∀ item ∈ items, Coincide tree enclosing (first item) (second item)) :
    Coincide tree enclosing (items.forM first) (items.forM second) := by
  induction items with
  | nil => exact (Settled.pure PUnit.unit).coincide
  | cons item items inductionHypothesis =>
      exact (each item List.mem_cons_self).bind fun _ =>
        inductionHypothesis fun next member => each next (List.mem_cons_of_mem item member)

theorem Coincide.within
    {first second : Walking Unit}
    (entry : StackEntry)
    (coincide : Coincide tree enclosing first second) :
    Coincide tree enclosing (within entry first) (within entry second) :=
  (settled_push entry).coincide.bind fun _ => coincide.bind fun _ =>
    (settled_pop.bind fun _ => .pure ()).coincide

/-- What follows a look at the tree may rely on what was seen. -/
theorem CoincideAt.read_bind
    {query : Tree -> Except TreeError α}
    {rest other : α -> Walking β}
    (next : ∀ value, query walk.tree = .ok value ->
      CoincideAt tree enclosing (rest value) (other value) walk) :
    CoincideAt tree enclosing (read query >>= rest) (read query >>= other) walk := by
  cases seen : query walk.tree with
  | ok value =>
      have done : read query walk = .ok value walk := read_eq_ok.mpr ⟨seen, rfl⟩
      unfold CoincideAt
      rw [bind_of_ok done, bind_of_ok done]
      exact next value seen
  | error error =>
      have refused := read_of_refused seen
      unfold CoincideAt
      rw [bind_of_error refused, bind_of_error refused]
      exact ⟨rfl, nofun⟩

/-! ## Expressions -/

theorem coincide_visitContents
    {expression other : NodeId -> Walking Unit}
    {node : Node}
    (parts : ∀ part ∈ node.parts, Coincide tree enclosing (expression part) (other part)) :
    Coincide tree enclosing (visitContents expression id node) (visitContents other id node) := by
  cases node with
  | statement body => exact fun _ _ => ⟨rfl, nofun⟩
  | source body => exact (settled_visitPath id).coincide
  | fetch body => exact fun _ _ => ⟨rfl, nofun⟩
  | path parent field => exact (settled_visitPath id).coincide
  | treat target asType => exact (settled_visitPath id).coincide
  | parameter name => exact (settled_visitParameter id name).coincide
  | literal value => exact (settled_visitLiteral id value).coincide
  | expression operator operands => exact .within _ (.forM parts)
  | order ordered ascending => exact .within _ (parts ordered List.mem_cons_self)
  | assignment target value =>
      exact .within _ ((parts target List.mem_cons_self).bind fun _ =>
        parts value (List.mem_cons_of_mem target List.mem_cons_self))

theorem coincide_visitNode
    {subquery otherSubquery expression other : NodeId -> Walking Unit}
    {node : Node}
    (subqueries : Coincide tree enclosing (subquery id) (otherSubquery id))
    (parts : ∀ part ∈ node.parts, Coincide tree enclosing (expression part) (other part)) :
    Coincide tree enclosing (visitNode subquery expression id node)
      (visitNode otherSubquery other id node) := by
  have held : Coincide tree enclosing
      (hold id >>= fun _ => visitContents expression id node)
      (hold id >>= fun _ => visitContents other id node) :=
    (settled_hold id).coincide.bind fun _ => coincide_visitContents parts
  cases node with
  | statement body =>
      unfold visitNode
      by_cases isSubquery : body.kind = .subquery
      · simp only [if_pos isSubquery]
        exact subqueries
      · simp only [if_neg isSubquery]
        exact held
  | _ => exact held

/-- What an expression consists of is older. So with any two bounds beyond the number of the
expression, its visit is the same. -/
theorem coincide_visitExpression
    {subquery otherSubquery : NodeId -> Walking Unit}
    {fuel other : Nat}
    (referring : tree.Referring)
    (subqueries : ∀ id, Coincide tree enclosing (subquery id) (otherSubquery id))
    (enough : min id.index tree.size < fuel)
    (otherEnough : min id.index tree.size < other) :
    Coincide tree enclosing (visitExpression subquery fuel id)
      (visitExpression otherSubquery other id) := by
  induction fuel generalizing id other with
  | zero => exact absurd enough (Nat.not_lt_zero _)
  | succ fuel inductionHypothesis =>
      obtain ⟨other, rfl⟩ : ∃ rest, other = rest + 1 := ⟨other - 1, by omega⟩
      rw [visitExpression_succ, visitExpression_succ]
      intro walk amid
      refine .read_bind fun node seen => coincide_visitNode (subqueries id) ?_ walk amid
      intro part member
      have found := Tree.node_eq_ok.mp seen
      rw [Tree.node?_eq_of_nodes amid.nodes] at found
      have older := (referring.parts found member).1
      have present := Tree.lt_size_of_node? found
      exact inductionHypothesis (by omega) (by omega)

theorem settled_visitExpression
    {subquery : NodeId -> Walking Unit}
    {fuel : Nat}
    (referring : tree.Referring)
    (subqueries : ∀ id, Settled tree enclosing (subquery id))
    (enough : min id.index tree.size < fuel) :
    Settled tree enclosing (visitExpression subquery fuel id) :=
  (coincide_visitExpression referring (fun id => (subqueries id).coincide) enough enough).settled

/-! ## Statements -/

theorem settled_clauseItems
    (statement : Statement)
    (clause : Clause) :
    Settled tree enclosing (clauseItems statement clause) := by
  cases clause with
  | on => exact (settled_read _).bind fun _ => .pure _
  | _ => exact .pure _

theorem coincide_visitBody
    {expression other : NodeId -> Walking Unit}
    {statement : Statement}
    (orderly : tree.Orderly)
    (found : tree.node? id = some (.statement statement))
    (expressions : ∀ item, Coincide tree (id :: enclosing) (expression item) (other item)) :
    Coincide tree enclosing (visitBody schema expression id statement)
      (visitBody schema other id statement) := by
  intro walk amid
  have opens : CoincideAt tree (id :: enclosing)
      (modify fun walk => { walk with enclosing := id :: walk.enclosing } : Walking PUnit)
      (modify fun walk => { walk with enclosing := id :: walk.enclosing }) walk :=
    ⟨rfl, amid.nodes, congrArg (id :: ·) amid.enclosing⟩
  refine opens.bind fun _ opened _ amid => ?_
  refine ((settled_visitSources orderly found).coincide opened amid).bind
    fun _ declared _ amid => ?_
  have clausesCoincide : Coincide tree (id :: enclosing)
      ((clauses statement.kind).forM (visitClause expression statement))
      ((clauses statement.kind).forM (visitClause other statement)) :=
    .forM fun clause _ => .within _ ((settled_clauseItems statement clause).coincide.bind
      fun items => .forM fun item _ => expressions item)
  refine (clausesCoincide declared amid).bind fun _ visited _ amid => ?_
  exact ⟨rfl, amid.nodes, congrArg List.tail amid.enclosing⟩

theorem coincide_enterStatement
    {expression other : NodeId -> Walking Unit}
    (orderly : tree.Orderly)
    (expressions : tree.contains id = true -> id ∉ enclosing ->
      ∀ item, Coincide tree (id :: enclosing) (expression item) (other item)) :
    Coincide tree enclosing (enterStatement schema expression id)
      (enterStatement schema other id) := by
  intro walk amid
  refine (settled_get.coincide walk amid).bind fun current between got _ => ?_
  cases got
  by_cases isOpen : id ∈ walk.enclosing
  · simp only [if_pos isOpen]
    exact ⟨rfl, nofun⟩
  simp only [if_neg isOpen]
  rw [amid.enclosing] at isOpen
  refine ((settled_hold id).coincide walk amid).bind fun _ held holds amid => ?_
  refine .read_bind fun statement seen => ?_
  have found := Tree.statement_eq_ok.mp seen
  rw [Tree.node?_eq_of_nodes amid.nodes] at found
  have present : tree.contains id = true := Tree.contains_iff.mpr (Tree.lt_size_of_node? found)
  exact Coincide.within _ (coincide_visitBody orderly found (expressions present isOpen)) held amid

/-- A statement is never open twice. So with any bounds beyond the number of nodes, its visit is the
same, and is never given up. -/
theorem coincide_visitStatement
    {bound otherBound fuel other : Nat}
    (orderly : tree.Orderly)
    (deep : tree.size < bound)
    (otherDeep : tree.size < otherBound)
    (enough : tree.unopened enclosing < fuel)
    (otherEnough : tree.unopened enclosing < other) :
    Coincide tree enclosing (visitStatement schema bound fuel id)
      (visitStatement schema otherBound other id) := by
  induction fuel generalizing id enclosing other with
  | zero => exact absurd enough (Nat.not_lt_zero _)
  | succ fuel inductionHypothesis =>
      obtain ⟨other, rfl⟩ : ∃ rest, other = rest + 1 := ⟨other - 1, by omega⟩
      rw [visitStatement_succ, visitStatement_succ]
      refine coincide_enterStatement orderly fun present isClosed item => ?_
      have fewer := Tree.unopened_lt present isClosed
      have shallow := Nat.min_le_right item.index tree.size
      refine coincide_visitExpression orderly.referring (fun subquery => ?_) (by omega) (by omega)
      exact inductionHypothesis (by omega) (by omega)

theorem settled_visitStatement
    {bound fuel : Nat}
    (orderly : tree.Orderly)
    (deep : tree.size < bound)
    (enough : tree.unopened enclosing < fuel) :
    Settled tree enclosing (visitStatement schema bound fuel id) :=
  (coincide_visitStatement orderly deep deep enough enough).settled

end Coincide

end Walking

end QueryGraph
