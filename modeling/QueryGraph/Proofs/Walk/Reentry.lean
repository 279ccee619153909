import QueryGraph.Proofs.Compile.Steps
import QueryGraph.Proofs.Tree.WellFormed
import QueryGraph.Proofs.Walk.Termination

/-!
# Statements inside themselves

The expressions of a statement lead to its subqueries, and their expressions further on. A walk that
succeeds has followed all of them, each inside the statements that lead to it. So where they lead
back to a statement that is still open, no walk succeeds.
-/

namespace QueryGraph

open Operation

namespace Tree

/-- A node is part of another one. -/
def PartOf
    (tree : Tree)
    (whole part : NodeId) : Prop :=
  ∃ node, tree.node? whole = some node ∧ part ∈ node.parts

/-- The expressions of a statement lead to another statement: it is one of them, or part of one. -/
def Enters
    (tree : Tree)
    (outer inner : NodeId) : Prop :=
  ∃ body clause item, tree.node? outer = some (.statement body) ∧ item ∈ tree.items body clause ∧
    Relation.ReflTransGen tree.PartOf item inner ∧ tree.HasStatement inner

/-- The expressions lead from the top statement into a statement, and from there back to it. -/
def Reenters (tree : Tree) : Prop :=
  ∃ id, Relation.ReflTransGen tree.Enters top id ∧ Relation.TransGen tree.Enters id id

/-- What a statement lists stands in a clause that belongs to its kind. -/
theorem mem_clauses
    {tree : Tree}
    {body : Statement}
    {clause : Clause}
    {item : NodeId}
    (accepts : body.Accepts)
    (member : item ∈ tree.items body clause) :
    clause ∈ Walking.clauses body.kind := by
  have selects (selecting : body.kind ∈ Build.selecting) :
      body.kind = .query ∨ body.kind = .subquery := by
    simpa [Build.selecting] using selecting
  cases clause with
  | on => cases body.kind <;> simp [Walking.clauses]
  | restriction => cases body.kind <;> simp [Walking.clauses]
  | selection =>
      rcases selects (accepts.selection (List.ne_nil_of_mem member)) with kind | kind <;>
        simp [kind, Walking.clauses]
  | groupList =>
      rcases selects (accepts.groupList (List.ne_nil_of_mem member)) with kind | kind <;>
        simp [kind, Walking.clauses]
  | groupRestriction =>
      have listed : body.groupRestriction ≠ none := by
        intro absent
        simp [items, absent] at member
      rcases selects (accepts.groupRestriction listed) with kind | kind <;>
        simp [kind, Walking.clauses]
  | orderList => simp [accepts.orderList (List.ne_nil_of_mem member), Walking.clauses]
  | assignments => simp [accepts.assignments (List.ne_nil_of_mem member), Walking.clauses]

end Tree

namespace Walking

variable {α : Type} {schema : Schema} {tree : Tree} {enclosing : List NodeId}
  {id inner item part : NodeId} {before after : Walk}

/-- Each member of a list was visited inside the same open statements. -/
theorem Settled.exists_of_forM
    {action : α -> Walking PUnit}
    {items : List α}
    {item : α}
    (each : ∀ item ∈ items, Settled tree enclosing (action item))
    (amid : before.Amid tree enclosing)
    (done : items.forM action before = .ok () after)
    (member : item ∈ items) :
    ∃ start next, start.Amid tree enclosing ∧ action item start = .ok () next := by
  induction items generalizing before with
  | nil => cases member
  | cons first rest inductionHypothesis =>
      obtain ⟨between, firstDone, restDone⟩ := forM_cons_eq_ok.mp done
      rcases List.mem_cons.mp member with rfl | later
      · exact ⟨before, between, amid, firstDone⟩
      · exact inductionHypothesis (fun next member => each next (List.mem_cons_of_mem first member))
          ((each first List.mem_cons_self before amid).of_ok firstDone) restDone later

/-- A node that consists of others is visited by visiting its parts. -/
theorem exists_visitContents_eq
    {node : Node}
    (expression : NodeId -> Walking Unit)
    (id : NodeId)
    (member : part ∈ node.parts) :
    ∃ entry, visitContents expression id node = within entry (node.parts.forM expression) := by
  cases node with
  | expression operator operands => exact ⟨_, rfl⟩
  | order ordered ascending =>
      refine ⟨.node id, congrArg (within _) ?_⟩
      exact (bind_pure (expression ordered)).symm
  | assignment target value =>
      refine ⟨.node id, congrArg (within _) (bind_congr fun _ => ?_)⟩
      exact (bind_pure (expression value)).symm
  | _ => cases member

/-- The parts of an expression are visited inside the same open statements. -/
theorem exists_visitPart
    {subquery : NodeId -> Walking Unit}
    {fuel : Nat}
    (referring : tree.Referring)
    (subqueries : ∀ id, Settled tree enclosing (subquery id))
    (enough : min item.index tree.size < fuel + 1)
    (isPart : tree.PartOf item part)
    (amid : before.Amid tree enclosing)
    (done : visitExpression subquery (fuel + 1) item before = .ok () after) :
    min part.index tree.size < fuel ∧
      ∃ start next, start.Amid tree enclosing ∧
        visitExpression subquery fuel part start = .ok () next := by
  obtain ⟨node, seen, visited⟩ := visitExpression_succ_eq_ok.mp done
  obtain ⟨other, found, member⟩ := isPart
  rw [← Tree.node?_eq_of_nodes amid.nodes, ← Tree.node_eq_ok, seen] at found
  cases found
  have found := Tree.node_eq_ok.mp seen
  rw [Tree.node?_eq_of_nodes amid.nodes] at found
  have present := Tree.lt_size_of_node? found
  have shallow {other : NodeId} (isPart : other ∈ node.parts) :
      min other.index tree.size < fuel := by
    have older := (referring.parts found isPart).1
    omega
  refine ⟨shallow member, ?_⟩
  obtain ⟨entry, same⟩ := exists_visitContents_eq (visitExpression subquery fuel) item member
  have contents : (hold item >>= fun _ => within entry
      (node.parts.forM (visitExpression subquery fuel))) before = .ok () after := by
    rw [← same]
    cases node with
    | statement body => cases member
    | _ => exact visited
  obtain ⟨_, held, holds, inside⟩ := bind_eq_ok.mp contents
  have amidHeld := (settled_hold item before amid).of_ok holds
  obtain ⟨-, inner, parts, -⟩ := within_eq_ok.mp inside
  refine Settled.exists_of_forM (fun other isPart => ?_)
    (⟨amidHeld.nodes, amidHeld.enclosing⟩ : (held.entering entry).Amid tree enclosing) parts member
  exact settled_visitExpression referring subqueries (shallow isPart)

/-- The statements that an expression leads to are visited inside the same open statements. -/
theorem exists_visitSubquery
    {subquery : NodeId -> Walking Unit}
    {fuel : Nat}
    (referring : tree.Referring)
    (subqueries : ∀ id, Settled tree enclosing (subquery id))
    (leads : Relation.ReflTransGen tree.PartOf item inner)
    (isStatement : tree.HasStatement inner)
    (enough : min item.index tree.size < fuel)
    (amid : before.Amid tree enclosing)
    (done : visitExpression subquery fuel item before = .ok () after) :
    ∃ start next, start.Amid tree enclosing ∧ subquery inner start = .ok () next := by
  induction leads using Relation.ReflTransGen.head_induction_on generalizing fuel before after with
  | refl =>
      obtain ⟨fuel, rfl⟩ : ∃ rest, fuel = rest + 1 := ⟨fuel - 1, by omega⟩
      obtain ⟨node, seen, visited⟩ := visitExpression_succ_eq_ok.mp done
      obtain ⟨body, found⟩ := isStatement
      rw [← Tree.node?_eq_of_nodes amid.nodes, ← Tree.node_eq_ok, seen] at found
      cases found
      unfold visitNode at visited
      by_cases isSubquery : body.kind = .subquery
      · simp only [if_pos isSubquery] at visited
        exact ⟨before, after, amid, visited⟩
      · simp only [if_neg isSubquery] at visited
        obtain ⟨_, held, -, refused⟩ := bind_eq_ok.mp visited
        cases refused
  | head isPart _ inductionHypothesis =>
      obtain ⟨fuel, rfl⟩ : ∃ rest, fuel = rest + 1 := ⟨fuel - 1, by omega⟩
      obtain ⟨shallow, start, next, amidStart, visited⟩ :=
        exists_visitPart referring subqueries enough isPart amid done
      exact inductionHypothesis shallow amidStart visited

/-- A visit to a statement inside some open statements, with fuel for all other ones, succeeded. -/
def Visited
    (schema : Schema)
    (tree : Tree)
    (enclosing : List NodeId)
    (id : NodeId) : Prop :=
  ∃ fuel before after, tree.unopened enclosing < fuel ∧ before.Amid tree enclosing ∧
    visitStatement schema (tree.size + 1) fuel id before = .ok () after

/-- A statement whose visit succeeded was not open. -/
theorem Visited.notOpen (visited : Visited schema tree enclosing id) : id ∉ enclosing := by
  obtain ⟨fuel, before, after, enough, amid, done⟩ := visited
  obtain ⟨fuel, rfl⟩ : ∃ rest, fuel = rest + 1 := ⟨fuel - 1, by omega⟩
  rw [visitStatement_succ] at done
  rw [← amid.enclosing]
  exact (enterStatement_eq_ok.mp done).1

/-- The items of a statement are visited inside it. -/
theorem exists_visitItem
    {expression : NodeId -> Walking Unit}
    {body : Statement}
    {clause : Clause}
    (orderly : tree.Orderly)
    (accepts : body.Accepts)
    (found : tree.node? id = some (.statement body))
    (listed : item ∈ tree.items body clause)
    (expressions : ∀ other, Settled tree (id :: enclosing) (expression other))
    (amid : before.Amid tree enclosing)
    (done : enterStatement schema expression id before = .ok () after) :
    ∃ start next, start.Amid tree (id :: enclosing) ∧ expression item start = .ok () next := by
  obtain ⟨-, held, statement, holds, seen, inside⟩ := enterStatement_eq_ok.mp done
  have amidHeld := (settled_hold id before amid).of_ok holds
  rw [Tree.statement_eq_ok, Tree.node?_eq_of_nodes amidHeld.nodes, found] at seen
  cases seen
  obtain ⟨-, _, bodyDone, -, -⟩ := within_eq_ok.mp inside
  obtain ⟨declared, _, sources, clausesDone, -⟩ := visitBody_eq_ok.mp bodyDone
  have amidOpened : ((held.entering (.statement id body.kind)).opening id).Amid tree
      (id :: enclosing) := ⟨amidHeld.nodes, congrArg (id :: ·) amidHeld.enclosing⟩
  have amidDeclared := (settled_visitSources orderly found _ amidOpened).of_ok sources
  have clauseSettled (clause : Clause) : Settled tree (id :: enclosing)
      (visitClause expression body clause) :=
    (Coincide.within _ ((settled_clauseItems body clause).bind fun items =>
      .forM fun other _ => expressions other).coincide).settled
  obtain ⟨start, next, amidStart, clauseDone⟩ := Settled.exists_of_forM
    (fun clause _ => clauseSettled clause) amidDeclared clausesDone
    (Tree.mem_clauses accepts listed)
  obtain ⟨-, items, _, itemsSeen, itemsDone, -, -⟩ := visitClause_eq_ok.mp clauseDone
  have amidEntered : (start.entering (.clause clause)).Amid tree (id :: enclosing) :=
    ⟨amidStart.nodes, amidStart.enclosing⟩
  rw [clauseItems_eq_ok orderly amidEntered.nodes found] at itemsSeen
  cases itemsSeen
  exact Settled.exists_of_forM (fun other _ => expressions other) amidEntered itemsDone listed

/-- What a statement leads to was visited inside it. -/
theorem Visited.enters
    (orderly : tree.Orderly)
    (admitting : tree.Admitting)
    (visited : Visited schema tree enclosing id)
    (enters : tree.Enters id inner) :
    Visited schema tree (id :: enclosing) inner := by
  have isClosed := visited.notOpen
  obtain ⟨fuel, before, after, enough, amid, done⟩ := visited
  obtain ⟨fuel, rfl⟩ : ∃ rest, fuel = rest + 1 := ⟨fuel - 1, by omega⟩
  obtain ⟨body, clause, item, found, listed, leads, isStatement⟩ := enters
  have fewer := Tree.unopened_lt (Tree.contains_of_node? found) isClosed
  have subqueries (other : NodeId) : Settled tree (id :: enclosing)
      (visitStatement schema (tree.size + 1) fuel other) :=
    settled_visitStatement orderly (Nat.lt_succ_self _) (by omega)
  have shallow (other : NodeId) : min other.index tree.size < tree.size + 1 := by omega
  rw [visitStatement_succ] at done
  obtain ⟨start, next, amidStart, itemDone⟩ := exists_visitItem orderly (admitting id _ found)
    found listed (fun other => settled_visitExpression orderly.referring subqueries (shallow other))
    amid done
  obtain ⟨into, out, amidInto, innerDone⟩ := exists_visitSubquery orderly.referring subqueries
    leads isStatement (shallow item) amidStart itemDone
  exact ⟨fuel, into, out, by omega, amidInto, innerDone⟩

/-- What the expressions of a statement lead to, directly or through others, was visited inside
it. -/
theorem Visited.exists_of_enters
    (orderly : tree.Orderly)
    (admitting : tree.Admitting)
    (visited : Visited schema tree enclosing id)
    (leads : Relation.ReflTransGen tree.Enters id inner) :
    ∃ inside, enclosing ⊆ inside ∧ Visited schema tree inside inner := by
  induction leads with
  | refl => exact ⟨enclosing, List.Subset.refl _, visited⟩
  | tail _ enters inductionHypothesis =>
      obtain ⟨inside, around, visitedThere⟩ := inductionHypothesis
      exact ⟨_, List.subset_cons_of_subset _ around, visitedThere.enters orderly admitting enters⟩

/-- The expressions of a visited statement do not lead back into it. -/
theorem Visited.not_enters_self
    (orderly : tree.Orderly)
    (admitting : tree.Admitting)
    (visited : Visited schema tree enclosing id) :
    ¬ Relation.TransGen tree.Enters id id := by
  intro again
  obtain ⟨next, enters, back⟩ := Relation.TransGen.head'_iff.mp again
  obtain ⟨inside, around, visitedAgain⟩ :=
    (visited.enters orderly admitting enters).exists_of_enters orderly admitting back
  exact visitedAgain.notOpen (around List.mem_cons_self)

end Walking
end QueryGraph
