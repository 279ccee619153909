import QueryGraph.Proofs.Tree.Frame
import QueryGraph.Proofs.Tree.Placement
import QueryGraph.Proofs.Tree.Visits

/-!
# What the visits of a walk come to

A visit to a path, a placeholder or a constant leaves a mark. What a list of nodes yields is told
for all later trees at once, as long as the statements and sources that were made for it stay as
they are: a tree grows while it is built, and a statement is visited from wherever it is used.
-/

namespace QueryGraph

/-- What a visit to a path, a placeholder or a constant leaves. -/
inductive Mark
  | path (id : NodeId)
  | named (name : String)
  | anonymous (id : NodeId)
  | literal
      (id : NodeId)
      (value : Literal)
  deriving DecidableEq, Repr

/-- What a visit to a node with a number leaves. -/
def Node.mark? (id : NodeId) : Node -> Option Mark
  | .source _ | .path _ _ | .treat _ _ => some (.path id)
  | .parameter (some name) => some (.named name)
  | .parameter none => some (.anonymous id)
  | .literal value => some (.literal id value)
  | _ => none

namespace Mark

/-- The node of a path. -/
def path? : Mark -> Option NodeId
  | .path id => some id
  | _ => none

/-- The name of a placeholder. -/
def named? : Mark -> Option String
  | .named name => some name
  | _ => none

/-- The node of a positional placeholder. -/
def anonymous? : Mark -> Option NodeId
  | .anonymous id => some id
  | _ => none

/-- A constant with its node. -/
def literal? : Mark -> Option (NodeId × Literal)
  | .literal id value => some (id, value)
  | _ => none

end Mark

/-- What stands in a clause of a statement, given the conditions of its joins. -/
def Statement.itemsWith
    (statement : Statement)
    (conditions : List NodeId) : Clause -> List NodeId
  | .selection => statement.selection
  | .on => conditions
  | .assignments => statement.assignments
  | .restriction => statement.restriction.toList
  | .groupList => statement.groupList
  | .groupRestriction => statement.groupRestriction.toList
  | .orderList => statement.orderList

namespace Tree

/-- What a visit to a node leaves. -/
def mark? (tree : Tree) (id : NodeId) : Option Mark :=
  (tree.node? id).bind (Node.mark? id)

/-- What some visits leave. -/
def marks (tree : Tree) (visits : List Visit) : List Mark :=
  visits.filterMap fun visit => tree.mark? visit.node

theorem filterMap_append_singleton
    (pick : α -> Option β)
    (items : List α)
    (last : α) :
    (items ++ [last]).filterMap pick = items.filterMap pick ++ (pick last).toList := by
  rw [List.filterMap_append, List.filterMap_cons, List.filterMap_nil]
  cases pick last <;> rfl

theorem marks_append_singleton
    (tree : Tree)
    (visits : List Visit)
    (last : Visit) :
    tree.marks (visits ++ [last]) = tree.marks visits ++ (tree.mark? last.node).toList :=
  filterMap_append_singleton _ visits last

/-- A visit that stays inside the statements around it: its node is not open, and paths and
correlated sources lead to sources of open statements. -/
structure Suits (tree : Tree) (visit : Visit) : Prop where
  closed : visit.node ∉ visit.enclosing
  path : ∀ chain, tree.pathChain visit.node = .ok chain ->
    chain.source.statement ∈ visit.enclosing
  correlations : ∀ body correlated outer source,
    tree.node? visit.node = some (.statement body) -> correlated ∈ body.correlations ->
      tree.resolveCorrelation correlated = .ok outer -> tree.node? outer = some (.source source) ->
        source.statement ∈ visit.enclosing

/-- Visits that stay inside the statements around them, and what they leave. -/
structure Tells
    (tree : Tree)
    (visits : List Visit)
    (marks : List Mark) : Prop where
  marks : tree.marks visits = marks
  suits : ∀ visit ∈ visits, tree.Suits visit

variable {tree before after : Tree} {id statement next : NodeId} {first other : Nat}
  {ids more : List NodeId} {marks others : List Mark} {node : Node}

namespace Tells

variable {visits later : List Visit}

theorem nil (tree : Tree) : tree.Tells [] [] := ⟨rfl, List.forall_mem_nil _⟩

theorem append
    (tells : tree.Tells visits marks)
    (tellsLater : tree.Tells later others) :
    tree.Tells (visits ++ later) (marks ++ others) where
  marks := by
    unfold Tree.marks
    rw [List.filterMap_append]
    exact congrArg₂ _ tells.marks tellsLater.marks
  suits := List.forall_mem_append.mpr ⟨tells.suits, tellsLater.suits⟩

theorem cons
    {visit : Visit}
    (found : tree.node? visit.node = some node)
    (suits : tree.Suits visit)
    (tells : tree.Tells visits marks) :
    tree.Tells (visit :: visits) ((node.mark? visit.node).toList ++ marks) where
  marks := by
    unfold Tree.marks Tree.mark?
    rw [List.filterMap_cons, found, Option.bind_some, ← tells.marks]
    cases node.mark? visit.node <;> rfl
  suits := List.forall_mem_cons.mpr ⟨suits, tells.suits⟩

end Tells

theorem mark?_of_isPathLike
    (found : tree.node? id = some node)
    (isPathLike : node.isPathLike = true) :
    tree.mark? id = some (.path id) := by
  rw [mark?, found]
  cases node with
  | source body => rfl
  | path parent field => rfl
  | treat target asType => rfl
  | _ => cases isPathLike

/-! ## Where a path leads -/

/-- A path that leads to a source of a statement. -/
def Reaches
    (tree : Tree)
    (statement id : NodeId) : Prop :=
  ∃ chain, tree.pathChain id = .ok chain ∧ chain.source.statement = statement

theorem Reaches.of_evolves
    (reaches : before.Reaches statement id)
    (evolves : before.Evolves after) :
    after.Reaches statement id := by
  obtain ⟨chain, found, here⟩ := reaches
  obtain ⟨source, same, foundLater⟩ := evolves.pathChain found
  exact ⟨_, foundLater, same.trans here⟩

theorem reaches_of_source
    {body : Source}
    (found : tree.node? id = some (.source body)) :
    tree.Reaches body.statement id :=
  ⟨_, chainOfNode_succ_eq_ok.mpr (Or.inl ⟨body, found, rfl⟩), rfl⟩

/-- A node that leads to a source is a source or a path. -/
theorem Reaches.hasPathLike
    (reaches : tree.Reaches statement id) :
    tree.HasPathLike id := by
  obtain ⟨chain, found, -⟩ := reaches
  rcases chainOfNode_succ_eq_ok.mp found with
    ⟨_, present, -⟩ | ⟨_, _, ⟨_, present⟩ | ⟨_, present⟩, -⟩
  all_goals exact ⟨_, present, rfl⟩

/-- A path leads where the node that it reads from leads. -/
theorem Reaches.step
    (reaches : tree.Reaches statement next)
    (placed : tree.Placed)
    (passed : (∃ name, tree.node? id = some (.path next name)) ∨
      ∃ asType, tree.node? id = some (.treat next asType)) :
    tree.Reaches statement id := by
  have isPathLike := reaches.hasPathLike
  obtain ⟨chain, found, here⟩ := reaches
  have inside : next.index < tree.size := by
    obtain ⟨_, present, -⟩ := isPathLike
    exact lt_size_of_node? present
  obtain ⟨inner, read, -⟩ := placed.exists_chainOfNode isPathLike inside
  have stays : tree.Evolves tree := .of_eq fun _ => rfl
  obtain ⟨source, same, again⟩ := stays.chainOfNode (Nat.le_succ tree.size) read
  have equal : chain = { inner with source := source } :=
    Except.ok.inj (found.symm.trans again)
  refine ⟨{ inner with below := next :: inner.below },
    chainOfNode_succ_eq_ok.mpr (Or.inr ⟨next, inner, passed, read, rfl⟩), ?_⟩
  rw [← here, equal]
  exact same.symm

/-! ## Visits in later trees -/

/-- A later tree in which something is visited. What was made from a number on has kept its
outline, and the statements around the visit were made before. -/
structure Setting (tree : Tree) (first : Nat) where
  later : Tree
  enclosing : List NodeId
  bound : Nat
  fuel : Nat
  orderly : later.Orderly
  evolves : tree.Evolves later
  keeps : tree.Keeps (fun id => first ≤ id.index) later
  nested : later.Nested enclosing
  statements : ∀ around ∈ enclosing, later.HasStatement around
  older : ∀ around ∈ enclosing, around.index < first
  wide : later.size ≤ bound
  deep : later.size ≤ first + fuel

namespace Setting

/-- The visits to a node and to what it consists of. -/
def visits
    (setting : tree.Setting first)
    (enough : Nat) : NodeId -> List Visit :=
  setting.later.visitsBelow
    (setting.later.visitsOf setting.bound setting.fuel setting.enclosing) setting.enclosing enough

/-- The same visits, seen from an earlier tree. -/
def since
    (setting : after.Setting first)
    (evolves : before.Evolves after)
    (keeps : before.Keeps (fun id => first ≤ id.index) after) :
    before.Setting first where
  __ := setting
  evolves := evolves.trans setting.evolves
  keeps := keeps.trans setting.keeps

/-- The same visits, where less has to be kept. -/
def raise
    (setting : tree.Setting first)
    (le : first ≤ other) :
    tree.Setting other where
  __ := setting
  keeps := setting.keeps.mono fun _ _ newer => Nat.le_trans le newer
  older around member := Nat.lt_of_lt_of_le (setting.older around member) le
  deep := Nat.le_trans setting.deep (Nat.add_le_add_right le setting.fuel)

/-- A node that is no statement is visited outside itself. -/
theorem not_mem_enclosing
    (setting : tree.Setting first)
    (found : setting.later.node? id = some node)
    (noStatement : ∀ body, node ≠ .statement body) :
    id ∉ setting.enclosing := by
  intro member
  obtain ⟨body, present⟩ := setting.statements id member
  rw [found] at present
  exact noStatement body (Option.some.inj present)

/-- The visits to a node that is no statement begin there. -/
theorem visits_succ
    {enough : Nat}
    (setting : tree.Setting first)
    (found : setting.later.node? id = some node)
    (noStatement : ∀ body, node ≠ .statement body) :
    setting.visits (enough + 1) id =
      ⟨id, setting.enclosing⟩ :: node.parts.flatMap (setting.visits enough) := by
  unfold visits
  rw [visitsBelow, found]
  cases node with
  | statement body => exact absurd rfl (noStatement body)
  | _ => rfl

end Setting

/-- What some nodes yield wherever they are visited inside a statement, in every later tree that
keeps what was made from a number on. -/
def Yields
    (tree : Tree)
    (first : Nat)
    (statement : NodeId)
    (ids : List NodeId)
    (marks : List Mark) : Prop :=
  ∀ (setting : tree.Setting first) (enough : Nat), statement ∈ setting.enclosing ->
    (∀ id ∈ ids, id.index < enough) ->
      setting.later.Tells (ids.flatMap (setting.visits enough)) marks

namespace Yields

theorem nil : tree.Yields first statement [] [] := fun setting _ _ _ => Tells.nil setting.later

theorem append
    (yields : tree.Yields first statement ids marks)
    (yieldsMore : tree.Yields first statement more others) :
    tree.Yields first statement (ids ++ more) (marks ++ others) := by
  intro setting enough member newer
  obtain ⟨idsNewer, moreNewer⟩ := List.forall_mem_append.mp newer
  rw [List.flatMap_append]
  exact (yields setting enough member idsNewer).append (yieldsMore setting enough member moreNewer)

theorem of_keeps
    (yields : before.Yields first statement ids marks)
    (evolves : before.Evolves after)
    (keeps : before.Keeps (fun id => first ≤ id.index) after) :
    after.Yields first statement ids marks :=
  fun setting => yields (setting.since evolves keeps)

theorem lower
    (yields : tree.Yields other statement ids marks)
    (le : first ≤ other) :
    tree.Yields first statement ids marks :=
  fun setting => yields (setting.raise le)

end Yields

/-! ## What single nodes yield -/

/-- A path that leads to a source of the statement yields its mark. -/
theorem yields_of_reaches
    (reaches : tree.Reaches statement id) :
    tree.Yields first statement [id] [.path id] := by
  intro setting enough member newer
  obtain ⟨rest, rfl⟩ := Nat.exists_eq_add_one_of_ne_zero
    (Nat.ne_zero_of_lt (newer id List.mem_cons_self))
  have reachesLater := reaches.of_evolves setting.evolves
  obtain ⟨node, found, isPathLike⟩ := reachesLater.hasPathLike
  obtain ⟨chain, chainFound, here⟩ := reachesLater
  have noStatement (body : Statement) : node ≠ .statement body := by
    rintro rfl
    cases isPathLike
  have suits : setting.later.Suits ⟨id, setting.enclosing⟩ := by
    refine ⟨setting.not_mem_enclosing found noStatement, fun other otherFound => ?_,
      fun body _ _ _ present => ?_⟩
    · rw [chainFound] at otherFound
      cases otherFound
      rwa [here]
    · rw [found] at present
      exact absurd (Option.some.inj present) (noStatement body)
  rw [List.flatMap_singleton, setting.visits_succ found noStatement]
  cases node with
  | source body => exact Tells.cons found suits (Tells.nil setting.later)
  | path parent field => exact Tells.cons found suits (Tells.nil setting.later)
  | treat target asType => exact Tells.cons found suits (Tells.nil setting.later)
  | _ => cases isPathLike

/-- A node that stays as it was made yields its own mark, and then what its parts yield. -/
theorem yields_of_isFinal
    (found : tree.node? id = some node)
    (isFinal : node.isFinal = true)
    (noPath : node.isPathLike = false)
    (older : ∀ part ∈ node.parts, part.index < id.index)
    (yields : tree.Yields first statement node.parts marks) :
    tree.Yields first statement [id] ((node.mark? id).toList ++ marks) := by
  intro setting enough member newer
  have inside := newer id List.mem_cons_self
  obtain ⟨rest, rfl⟩ := Nat.exists_eq_add_one_of_ne_zero (Nat.ne_zero_of_lt inside)
  have foundLater := setting.evolves.node?_of_isFinal found isFinal
  have noStatement (body : Statement) : node ≠ .statement body := by
    rintro rfl
    cases isFinal
  have suits : setting.later.Suits ⟨id, setting.enclosing⟩ := by
    refine ⟨setting.not_mem_enclosing foundLater noStatement, fun chain chainFound => ?_,
      fun body _ _ _ present => ?_⟩
    · obtain ⟨other, again, isPathLike⟩ := Reaches.hasPathLike ⟨chain, chainFound, rfl⟩
      rw [foundLater] at again
      cases again
      rw [noPath] at isPathLike
      cases isPathLike
    · rw [foundLater] at present
      exact absurd (Option.some.inj present) (noStatement body)
  rw [List.flatMap_singleton, setting.visits_succ foundLater noStatement]
  refine Tells.cons foundLater suits (yields setting rest member fun part partMember => ?_)
  exact Nat.lt_of_lt_of_le (older part partMember) (Nat.le_of_lt_succ inside)

/-! ## What a statement yields -/

/-- What a statement yields wherever it is visited inside the one that it was declared in, in every
later tree that keeps what was made for it. -/
def YieldsStatement
    (tree : Tree)
    (id : NodeId)
    (marks : List Mark) : Prop :=
  ∀ setting : tree.Setting id.index,
    (∀ body around, setting.later.node? id = some (.statement body) ->
      body.parent = some around -> around ∈ setting.enclosing) ->
    setting.later.Tells
      (setting.later.visitsOf setting.bound setting.fuel setting.enclosing id) marks

/-- A subquery yields what it yields as a statement. -/
theorem YieldsStatement.yields
    {body : Statement}
    (yields : tree.YieldsStatement id marks)
    (found : tree.outline? id = some (.statement body))
    (declared : body.parent = some statement) :
    tree.Yields id.index statement [id] marks := by
  intro setting enough member newer
  obtain ⟨rest, rfl⟩ := Nat.exists_eq_add_one_of_ne_zero
    (Nat.ne_zero_of_lt (newer id List.mem_cons_self))
  obtain ⟨full, foundLater, rfl⟩ :=
    exists_of_outline?_statement (setting.keeps id _ (Nat.le_refl id.index) found)
  have visited : setting.visits (rest + 1) id =
      setting.later.visitsOf setting.bound setting.fuel setting.enclosing id := by
    unfold Setting.visits
    rw [visitsBelow, foundLater]
  rw [List.flatMap_singleton, visited]
  refine yields setting fun other around present parent => ?_
  rw [foundLater] at present
  cases present
  replace declared : full.parent = some statement := declared
  rw [declared] at parent
  cases parent
  exact member

/-- Whatever a correlated source of a statement stands for belongs to an open statement, where the
one that the statement was declared in is open. -/
theorem Orderly.correlation_mem
    {body : Statement}
    {correlated outer : NodeId}
    {source : Source}
    {enclosing : List NodeId}
    (orderly : tree.Orderly)
    (nested : tree.Nested enclosing)
    (found : tree.node? id = some (.statement body))
    (inside : ∀ around, body.parent = some around -> around ∈ enclosing)
    (listed : correlated ∈ body.correlations)
    (resolved : tree.resolveCorrelation correlated = .ok outer)
    (isSource : tree.node? outer = some (.source source)) :
    source.statement ∈ enclosing := by
  have refers : tree.StatementRefers id body := orderly.referring id _ found
  obtain ⟨own, next, ownFound, isCorrelated, rfl⟩ := refers.correlations correlated listed
  have places := (orderly.placed correlated _ ownFound).1
  rw [isCorrelated] at places
  obtain ⟨-, again, around, nextSource, againFound, -, parent, nextFound, encloses⟩ := places
  rw [found] at againFound
  cases againFound
  have nextInside := nested.of_enclosesFrom encloses (inside around parent)
  unfold resolveCorrelation at resolved
  rw [resolveFrom, source_eq_ok.mpr ownFound] at resolved
  simp only [isCorrelated] at resolved
  exact nested.of_resolveFrom orderly.placed nextFound nextInside resolved isSource

theorem HasItem.lt_size (isItem : tree.HasItem id) : id.index < tree.size := by
  rcases isItem with isExpression | ⟨_, _, found⟩ | ⟨_, _, found⟩
  · exact isExpression.lt_size
  · exact lt_size_of_node? found
  · exact lt_size_of_node? found

/-- The setting of what stands in a statement, which is visited inside the one that it was declared
in. -/
def Setting.enter
    {body : Statement}
    {fuel : Nat}
    (setting : tree.Setting id.index)
    (found : setting.later.node? id = some (.statement body))
    (inside : ∀ around, body.parent = some around -> around ∈ setting.enclosing)
    (le : id.index < first)
    (enough : setting.fuel = fuel + 1) :
    tree.Setting first where
  later := setting.later
  enclosing := id :: setting.enclosing
  bound := setting.bound
  fuel := fuel
  orderly := setting.orderly
  evolves := setting.evolves
  keeps := setting.keeps.mono fun _ _ newer => Nat.le_trans (Nat.le_of_lt le) newer
  nested := by
    intro other member otherBody around present parent
    rcases List.mem_cons.mp member with rfl | outer
    · rw [found] at present
      cases present
      exact List.mem_cons_of_mem _ (inside around parent)
    · exact List.mem_cons_of_mem _ (setting.nested other outer otherBody around present parent)
  statements := List.forall_mem_cons.mpr ⟨⟨body, found⟩, setting.statements⟩
  older := List.forall_mem_cons.mpr
    ⟨le, fun around member => Nat.lt_trans (setting.older around member) le⟩
  wide := setting.wide
  deep := by
    have deep := setting.deep
    omega

/-- A statement yields what the items of its clauses yield, in the order of its clauses. -/
theorem yieldsStatement_of_items
    {body : Statement}
    {conditions : List NodeId}
    (found : tree.outline? id = some (.statement body))
    (le : id.index < first)
    (stable : ∀ later : Tree, later.Orderly ->
      tree.Keeps (fun other => id.index ≤ other.index) later ->
        body.roots.flatMap later.conditionsOf = conditions)
    (yields : tree.Yields first id
      ((Walking.clauses body.kind).flatMap (body.itemsWith conditions)) marks) :
    tree.YieldsStatement id marks := by
  intro setting inside
  obtain ⟨full, foundLater, rfl⟩ :=
    exists_of_outline?_statement (setting.keeps id _ (Nat.le_refl id.index) found)
  have parentInside (around : NodeId) (parent : full.parent = some around) :
      around ∈ setting.enclosing := inside full around foundLater parent
  have closed : id ∉ setting.enclosing := fun member =>
    Nat.lt_irrefl _ (setting.older id member)
  obtain ⟨rest, more⟩ : ∃ rest, setting.fuel = rest + 1 := by
    have inTree := lt_size_of_node? foundLater
    have deep := setting.deep
    exact ⟨setting.fuel - 1, by omega⟩
  have items (clause : Clause) : setting.later.items full clause =
      ({ full with correlations := [] } : Statement).itemsWith conditions clause := by
    cases clause with
    | on => exact stable setting.later setting.orderly setting.keeps
    | _ => rfl
  let inner := setting.enter foundLater parentInside le more
  have visited : setting.later.visitsOf setting.bound setting.fuel setting.enclosing id =
      ⟨id, setting.enclosing⟩ :: ((Walking.clauses full.kind).flatMap
        (({ full with correlations := [] } : Statement).itemsWith conditions)).flatMap
          (inner.visits setting.bound) := by
    rw [more, visitsOf, if_neg closed, foundLater, List.flatMap_assoc]
    simp only [visitsWithin, items]
    rfl
  have suits : setting.later.Suits ⟨id, setting.enclosing⟩ := by
    refine ⟨closed, fun chain chainFound => ?_, ?_⟩
    · obtain ⟨other, again, isPathLike⟩ := Reaches.hasPathLike ⟨chain, chainFound, rfl⟩
      rw [foundLater] at again
      cases again
      cases isPathLike
    · intro body correlated outer source present listed resolved isSource
      rw [foundLater] at present
      cases present
      exact setting.orderly.correlation_mem setting.nested foundLater parentInside listed resolved
        isSource
  rw [visited]
  refine Tells.cons foundLater suits
    (yields inner setting.bound List.mem_cons_self fun item member => ?_)
  obtain ⟨clause, -, inClause⟩ := List.mem_flatMap.mp member
  rw [← items clause] at inClause
  exact Nat.lt_of_lt_of_le (setting.orderly.hasItem_of_mem_items foundLater inClause).lt_size
    setting.wide

/-! ## Placeholders -/

/-- The positional placeholders that are marked are those that are visited. -/
theorem filterMap_marks_anonymous (tree : Tree) (visits : List Visit) :
    (tree.marks visits).filterMap Mark.anonymous? = tree.anonymous visits := by
  have each (visit : Visit) : (tree.mark? visit.node).bind Mark.anonymous? =
      if tree.isAnonymous visit.node then some visit.node else none := by
    unfold mark? isAnonymous
    cases tree.node? visit.node with
    | none => rfl
    | some node =>
        cases node with
        | parameter name => cases name <;> simp [Node.mark?, Mark.anonymous?]
        | _ => simp [Node.mark?, Mark.anonymous?]
  unfold marks anonymous
  rw [List.filterMap_filterMap, List.filter_map, ← List.filterMap_eq_filter,
    List.map_filterMap]
  refine List.filterMap_congr fun visit _ => ?_
  rw [each]
  by_cases isAnonymous : tree.isAnonymous visit.node = true <;> simp [isAnonymous, Option.guard]

/-- A positional placeholder leaves a mark wherever it is met. -/
theorem count_marks_anonymous (tree : Tree) (visits : List Visit) (id : NodeId) :
    (tree.marks visits).count (.anonymous id) = (tree.anonymous visits).count id := by
  rw [← filterMap_marks_anonymous]
  induction tree.marks visits with
  | nil => rfl
  | cons mark marks inductionHypothesis =>
      cases mark <;>
        simp [List.filterMap_cons, Mark.anonymous?, List.count_cons, inductionHypothesis]

end Tree
end QueryGraph
