import QueryGraph.Proofs.Document.Rules

/-!
# What the clauses of a document yield

A clause lists what it yields in its statement. Joins are numbered when they are declared, and get
their conditions afterwards, in the same order. Giving one of them a condition changes no other
source.
-/

namespace QueryGraph

open Operation

namespace Document

variable {statement : NodeId} {forms others : List Form}

namespace Filling

/-! ## Filling the clauses of a statement -/

/-- A change of a statement. -/
abbrev Change := QueryGraph.Statement -> QueryGraph.Statement

def selection (ids : List NodeId) : Change := fun body =>
  { body with selection := body.selection ++ ids }

def groupList (ids : List NodeId) : Change := fun body =>
  { body with groupList := body.groupList ++ ids }

def orderList (ids : List NodeId) : Change := fun body =>
  { body with orderList := body.orderList ++ ids }

def assignments (ids : List NodeId) : Change := fun body =>
  { body with assignments := body.assignments ++ ids }

def restriction (item : Option NodeId) : Change := fun body => { body with restriction := item }

def groupRestriction (item : Option NodeId) : Change := fun body =>
  { body with groupRestriction := item }

/-- A clause that takes any number of nodes, one after another. -/
structure Appends (put : List NodeId -> Change) : Prop where
  none : ∀ body, put [] body = body
  more : ∀ id ids body, put ids (put [id] body) = put (id :: ids) body

theorem appends_selection : Appends selection where
  none body := by simp [selection]
  more id ids body := by simp [selection]

theorem appends_groupList : Appends groupList where
  none body := by simp [groupList]
  more id ids body := by simp [groupList]

theorem appends_orderList : Appends orderList where
  none body := by simp [orderList]
  more id ids body := by simp [orderList]

theorem appends_assignments : Appends assignments where
  none body := by simp [assignments]
  more id ids body := by simp [assignments]

end Filling

/-- A node that was made after a statement is not the statement. -/
theorem Draft.ne_of_first
    {before : Draft}
    {node : Node}
    {id : NodeId}
    (found : before.tree.outline? statement = some node)
    (newer : before.tree.size ≤ id.index) :
    id ≠ statement := by
  rintro rfl
  exact Nat.lt_irrefl _ (Nat.lt_of_lt_of_le (Tree.lt_size_of_outline? found) newer)

/-- An expression that was made, and then taken into a clause by an operation of the builder. -/
theorem Draft.Expresses.amended
    {before between : Draft}
    {tree : Tree}
    {body : QueryGraph.Statement}
    {id : NodeId}
    {change : Filling.Change}
    (expresses : before.Expresses statement id forms between)
    (found : before.tree.outline? statement = some (.statement body))
    (amends : between.tree.Amends statement change tree) :
    before.Grows (fun other => other ≠ statement) { between with tree := tree } ∧
      ({ between with tree := tree } : Draft).Yields before.tree.size statement [id] forms ∧
      tree.outline? statement = some (.statement (change body)) := by
  have grows : between.Grows (fun other => other ≠ statement) { between with tree := tree } :=
    .onTree amends.grows
  exact ⟨(expresses.grows.mono fun _ _ _ => trivial).trans grows,
    expresses.yields.of_grows grows fun _ _ newer => Draft.ne_of_first found newer,
    amends.amended _ (expresses.grows.keeps statement _ trivial found)⟩

namespace Drafting

/-! ## Clauses of a statement -/

variable {allowed : StatementKind -> Prop} {put : List NodeId -> Filling.Change}

/-- An action that puts one node into a clause that some kinds of statements have. -/
def Puts
    (statement : NodeId)
    (allowed : StatementKind -> Prop)
    (put : List NodeId -> Filling.Change)
    (action : Drafting α)
    (forms : List Form) : Prop :=
  ∀ ⦃before after : Draft⦄ ⦃body : QueryGraph.Statement⦄ ⦃value : α⦄, before.Inside statement ->
    before.Sound -> before.tree.outline? statement = some (.statement body) ->
      action before = .ok value after ->
        before.Grows (fun other => other ≠ statement) after ∧ allowed body.kind ∧
          ∃ id, after.Yields before.tree.size statement [id] forms ∧
            after.tree.outline? statement = some (.statement (put [id] body))

/-- An action that fills a clause of a statement that is ready for it. -/
def Fills
    (statement : NodeId)
    (ready : QueryGraph.Statement -> Prop)
    (allowed : StatementKind -> Prop)
    (nodes : ι -> List NodeId)
    (put : ι -> Filling.Change)
    (action : Drafting Unit)
    (forms : List Form) : Prop :=
  ∀ ⦃before after : Draft⦄ ⦃body : QueryGraph.Statement⦄, before.Inside statement ->
    before.Sound -> before.tree.outline? statement = some (.statement body) -> ready body ->
      action before = .ok () after ->
        before.Grows (fun other => other ≠ statement) after ∧
          ∃ items, after.Yields before.tree.size statement (nodes items) forms ∧
            after.tree.outline? statement = some (.statement (put items body)) ∧
            (allowed body.kind ∨ nodes items = [])

theorem fills_nil (appends : Filling.Appends put) :
    Fills statement (fun _ => True) allowed id put (pure ()) [] := by
  intro before after body _ _ found _ done
  cases done
  exact ⟨.refl _ _, [], .nil, by rwa [appends.none], Or.inr rfl⟩

theorem fills_cons
    {step : Drafting α}
    {rest : Drafting Unit}
    (appends : Filling.Appends put)
    (puts : Puts statement allowed put step forms)
    (fills : Fills statement (fun _ => True) allowed id put rest others) :
    Fills statement (fun _ => True) allowed id put (step >>= fun _ => rest)
      (forms ++ others) := by
  intro before after body inside sound found _ done
  obtain ⟨value, between, stepped, remaining⟩ := bind_eq_ok.mp done
  obtain ⟨grows, isAllowed, node, yields, foundBetween⟩ := puts inside sound found stepped
  obtain ⟨growsLater, ids, yieldsLater, foundLater, -⟩ :=
    fills (grows.inside inside) (grows.sound sound) foundBetween trivial remaining
  refine ⟨grows.trans growsLater, node :: ids, ?_, ?_, Or.inl isAllowed⟩
  · exact (yields.of_grows growsLater fun _ _ newer => Draft.ne_of_first found newer).append
      (yieldsLater.lower grows.evolves.size_le)
  · rwa [appends.more] at foundLater

/-- An expression is put into a clause by an operation of the builder. -/
theorem puts_add
    {action : Drafting NodeId}
    {add : NodeId -> Build Unit}
    (adds : ∀ ⦃before after : Tree⦄ ⦃id : NodeId⦄, add id before = .ok () after ->
      (∃ body, before.node? statement = some (.statement body) ∧ allowed body.kind) ∧
        before.Amends statement (put [id]) after)
    (expresses : Expresses action forms) :
    Puts statement allowed put (do onTree (add (← action))) forms := by
  intro before after body value inside sound found done
  obtain ⟨id, between, made, built⟩ := bind_eq_ok.mp done
  obtain ⟨tree, added, rfl⟩ := onTree_eq_ok built
  obtain ⟨⟨full, present, isAllowed⟩, amends⟩ := adds added
  have inner := expresses inside sound made
  obtain ⟨grows, yields, foundLater⟩ := inner.amended found amends
  rw [Tree.kind_eq_of_outline? present (inner.grows.keeps statement _ trivial found)] at isAllowed
  exact ⟨grows, isAllowed, id, yields, foundLater⟩

theorem puts_order
    {action : Drafting NodeId}
    (expresses : Expresses action forms)
    (ascending : Bool) :
    Puts statement (fun kind => kind = .query) Filling.orderList
      (do onTree (Build.orderBy statement (← action) ascending)) forms := by
  intro before after body id inside sound found done
  obtain ⟨item, between, made, built⟩ := bind_eq_ok.mp done
  obtain ⟨tree, ordered, rfl⟩ := onTree_eq_ok built
  obtain ⟨⟨full, present, isQuery⟩, amends, older, orderFound⟩ := Build.of_orderBy ordered
  have inner := expresses inside sound made
  obtain ⟨grows, ⟨marks, denotes, yields⟩, foundLater⟩ :=
    inner.amended found amends
  rw [Tree.kind_eq_of_outline? present (inner.grows.keeps statement _ trivial found)] at isQuery
  exact ⟨grows, isQuery, id, ⟨marks, denotes, Tree.yields_of_isFinal orderFound rfl rfl
    (List.forall_mem_singleton.mpr older) yields⟩, foundLater⟩

theorem puts_assign
    {action : Drafting NodeId}
    (expresses : Expresses action forms)
    (text : String) :
    Puts statement (fun kind => kind = .update) Filling.assignments
      (do
        let target ← path text
        onTree (Build.assign statement target (← action))) (.path (.path text) :: forms) := by
  intro before after body id inside sound found done
  obtain ⟨target, pathDraft, pathDone, afterPath⟩ := bind_eq_ok.mp done
  obtain ⟨value, between, made, built⟩ := bind_eq_ok.mp afterPath
  obtain ⟨tree, assigned, rfl⟩ := onTree_eq_ok built
  obtain ⟨⟨full, present, isUpdate⟩, amends, targetOlder, valueOlder, assignmentFound⟩ :=
    Build.of_assign assigned
  have targetInner := expresses_path text inside sound pathDone
  have inner := expresses (targetInner.grows.inside inside) (targetInner.grows.sound sound) made
  have foundPath := targetInner.grows.keeps statement _ trivial found
  obtain ⟨grows, yields, foundLater⟩ := inner.amended foundPath amends
  rw [Tree.kind_eq_of_outline? present (inner.grows.keeps statement _ trivial foundPath)]
    at isUpdate
  have targetYields : ({ between with tree := tree } : Draft).Yields before.tree.size statement
      [target] [.path (.path text)] :=
    targetInner.yields.of_grows grows fun _ _ newer => Draft.ne_of_first found newer
  obtain ⟨marks, denotes, parts⟩ :=
    targetYields.append (yields.lower targetInner.grows.evolves.size_le)
  refine ⟨(targetInner.grows.mono fun _ _ _ => trivial).trans grows, isUpdate, id,
    ⟨marks, denotes, Tree.yields_of_isFinal assignmentFound rfl rfl ?_ parts⟩, foundLater⟩
  exact List.forall_mem_cons.mpr ⟨targetOlder, List.forall_mem_singleton.mpr valueOlder⟩

/-! ## Clauses that may be absent -/

/-- What adding an expression that may be absent comes to. -/
def Optionally
    (item : Option Expression)
    (forms : List Form) : Prop :=
  ∀ ⦃add : NodeId -> Build Unit⦄ ⦃before after : Draft⦄ ⦃statement : NodeId⦄,
    before.Inside statement -> before.Sound -> optionalClause add item before = .ok () after ->
      forms = [] ∧ after = before ∨
        ∃ id between tree, before.Expresses statement id forms between ∧
          add id between.tree = .ok () tree ∧ after = { between with tree := tree }

theorem optionally_none : Optionally none [] := by
  intro add before after statement _ _ done
  cases done
  exact Or.inl ⟨rfl, rfl⟩

theorem optionally_some
    {item : Expression}
    (expresses : Expresses (expression item) forms) :
    Optionally (some item) forms := by
  intro add before after statement inside sound done
  obtain ⟨id, between, made, built⟩ := bind_eq_ok.mp done
  obtain ⟨tree, added, rfl⟩ := onTree_eq_ok built
  exact Or.inr ⟨id, between, tree, expresses inside sound made, added, rfl⟩

theorem fills_restriction
    {item : Option Expression}
    (optionally : Optionally item forms) :
    Fills statement (fun body => body.restriction = none) (fun _ => True) Option.toList
      Filling.restriction (optionalClause (Build.restrict statement) item) forms := by
  intro before after body inside sound found unrestricted done
  rcases optionally inside sound done with ⟨rfl, rfl⟩ | ⟨id, between, tree, inner, added, rfl⟩
  · refine ⟨.refl _ _, none, .nil, ?_, Or.inr rfl⟩
    rw [found, Filling.restriction, ← unrestricted]
  · have foundBetween := inner.grows.keeps statement _ trivial found
    obtain ⟨grows, yields, foundLater⟩ :=
      inner.amended found (Build.of_restrict foundBetween unrestricted added)
    exact ⟨grows, some id, yields, foundLater, Or.inl trivial⟩

theorem fills_groupRestriction
    {item : Option Expression}
    (optionally : Optionally item forms) :
    Fills statement (fun body => body.groupRestriction = none)
      (fun kind => kind ∈ Build.selecting) Option.toList Filling.groupRestriction
      (optionalClause (Build.having statement) item) forms := by
  intro before after body inside sound found unrestricted done
  rcases optionally inside sound done with ⟨rfl, rfl⟩ | ⟨id, between, tree, inner, added, rfl⟩
  · refine ⟨.refl _ _, none, .nil, ?_, Or.inr rfl⟩
    rw [found, Filling.groupRestriction, ← unrestricted]
  · have foundBetween := inner.grows.keeps statement _ trivial found
    obtain ⟨⟨full, present, selects⟩, amends⟩ := Build.of_having foundBetween unrestricted added
    obtain ⟨grows, yields, foundLater⟩ := inner.amended found amends
    rw [Tree.kind_eq_of_outline? present foundBetween] at selects
    exact ⟨grows, some id, yields, foundLater, Or.inl selects⟩

end Drafting
end Document

/-! ## The conditions of joins -/

namespace Document

variable {before middle after : Draft} {statement : NodeId} {first : Nat}
  {declared more : List NodeId} {forms others : List Form}

/-- Conditions that were given to some joins. -/
structure Draft.GivesConditions
    (before : Draft)
    (statement : NodeId)
    (first : Nat)
    (declared : List NodeId)
    (forms : List Form)
    (after : Draft) : Prop where
  grows : before.Grows (fun other => other ∉ declared) after
  joins : before.tree.KeepsJoins declared after.tree
  yields : after.Yields first statement (after.tree.conditionsAt declared) forms

theorem Tree.conditionsAt_eq
    {before after : Tree}
    {closed : NodeId -> Prop}
    {ids : List NodeId}
    (keeps : before.Keeps closed after)
    (isClosed : ∀ id ∈ ids, closed id)
    (found : ∀ id ∈ ids, ∃ body, before.outline? id = some (.source body)) :
    after.conditionsAt ids = before.conditionsAt ids := by
  unfold Tree.conditionsAt
  refine List.flatMap_congr fun id member => ?_
  obtain ⟨body, present⟩ := found id member
  rw [Tree.condition?_of_outline? present,
    Tree.condition?_of_outline? (keeps id _ (isClosed id member) present)]

namespace Draft

/-- Joins keep having no condition while others are given theirs. -/
theorem Blank.remaining
    (blank : before.Blank first (declared ++ more))
    (gives : before.GivesConditions statement first declared forms after) :
    after.Blank first more :=
  blank.right.of_grows gives.grows fun id member inDeclared =>
    blank.apart id inDeclared id member rfl

/-- Conditions that were given first to some joins and then to others. -/
theorem GivesConditions.append
    (blank : before.Blank first (declared ++ more))
    (earlier : before.GivesConditions statement first declared forms middle)
    (later : middle.GivesConditions statement first more others after) :
    before.GivesConditions statement first (declared ++ more) (forms ++ others) after := by
  have apart : ∀ id ∈ declared, id ∉ more := fun id inDeclared inMore =>
    blank.apart id inDeclared id inMore rfl
  have found : ∀ id ∈ declared, ∃ body, middle.tree.outline? id = some (.source body) := by
    intro id member
    obtain ⟨body, found, -⟩ := blank.unconditional id (List.mem_append_left _ member)
    obtain ⟨later, foundLater, -⟩ := earlier.joins id member body found
    exact ⟨later, foundLater⟩
  refine ⟨?_, ?_, ?_⟩
  · exact (earlier.grows.mono fun id _ outside inDeclared =>
      outside (List.mem_append_left _ inDeclared)).trans
        (later.grows.mono fun id _ outside inMore => outside (List.mem_append_right _ inMore))
  · intro id member body present
    rcases List.mem_append.mp member with inDeclared | inMore
    · obtain ⟨between, presentBetween, same⟩ := earlier.joins id inDeclared body present
      exact ⟨between, later.grows.keeps id _ (apart id inDeclared) presentBetween, same⟩
    · have outside : id ∉ declared := fun inDeclared => apart id inDeclared inMore
      exact later.joins id inMore body (earlier.grows.keeps id _ outside present)
  · have kept := Tree.conditionsAt_eq later.grows.keeps apart found
    have split : after.tree.conditionsAt (declared ++ more) =
        after.tree.conditionsAt declared ++ after.tree.conditionsAt more := List.flatMap_append
    rw [split, kept]
    refine (earlier.yields.of_grows later.grows fun id _ newer inMore => ?_).append later.yields
    exact Nat.lt_irrefl _
      (Nat.lt_of_lt_of_le (blank.older id (List.mem_append_right _ inMore)) newer)

end Draft

namespace Drafting

/-- What giving some joins of a document their conditions comes to. The numbers that are left over
are those of other joins. -/
def ConditionsJoins
    (list : List (JoinOf Expression))
    (forms : List Form) : Prop :=
  ∀ ⦃before after : Draft⦄ ⦃statement : NodeId⦄ ⦃first : Nat⦄
    ⦃ids declared others left : List NodeId⦄, before.Inside statement -> before.Sound ->
      first ≤ before.tree.size -> before.tree.Joined list ids declared ->
        before.Blank first declared ->
          joinConditions list (declared ++ others) before = .ok left after ->
            left = others ∧ before.GivesConditions statement first declared forms after

/-- What giving all joins of a statement their conditions comes to. -/
def ConditionsRoots
    (list : List (RootOf Expression))
    (forms : List Form) : Prop :=
  ∀ ⦃before after : Draft⦄ ⦃statement : NodeId⦄ ⦃first : Nat⦄ ⦃ids declared : List NodeId⦄,
    before.Inside statement -> before.Sound -> first ≤ before.tree.size ->
      before.tree.Rooted list ids declared -> (∀ id ∈ ids, id ∉ declared) ->
        before.Blank first declared -> conditions list declared before = .ok () after ->
          before.GivesConditions statement first declared forms after

theorem gives_nil : before.GivesConditions statement first [] [] before where
  grows := .refl _ _
  joins _ member := nomatch member
  yields := .nil

/-- A join is given its condition, if it has one. -/
theorem gives_condition
    {join : NodeId}
    {on : Option Expression}
    (optionally : Optionally on forms)
    (inside : before.Inside statement)
    (sound : before.Sound)
    (le : first ≤ before.tree.size)
    (blank : before.Blank first [join])
    (done : optionalClause (Build.setOn join) on before = .ok () after) :
    before.GivesConditions statement first [join] forms after := by
  obtain ⟨body, found, unconditional⟩ := blank.unconditional join List.mem_cons_self
  have single (tree : Tree) : tree.conditionsAt [join] = (tree.condition? join).toList :=
    List.flatMap_singleton _ _
  rcases optionally inside sound done with ⟨rfl, rfl⟩ | ⟨id, between, tree, inner, added, rfl⟩
  · refine ⟨.refl _ _, .of_keeps (Tree.Keeps.refl _ fun _ => True) fun _ _ => trivial, ?_⟩
    rw [single, Tree.condition?_of_outline? found, unconditional]
    exact .nil
  · obtain ⟨grown, amended⟩ := Build.of_setOn added
    have foundBetween := inner.grows.keeps join _ trivial found
    obtain ⟨later, foundLater, sameJoins, conditional⟩ := amended body foundBetween
    have grows : between.Grows (fun other => other ≠ join) { between with tree := tree } :=
      .onTree grown
    refine ⟨?_, ?_, ?_⟩
    · exact (inner.grows.mono fun _ _ _ => trivial).trans
        (grows.mono fun id _ outside => fun same => outside (List.mem_singleton.mpr same))
    · intro other member otherBody otherFound
      obtain rfl := List.mem_singleton.mp member
      rw [found] at otherFound
      cases otherFound
      exact ⟨later, foundLater, sameJoins⟩
    · rw [single, Tree.condition?_of_outline? foundLater, conditional]
      refine (inner.yields.of_grows grows fun other _ newer => ?_).lower le
      rintro rfl
      exact Nat.lt_irrefl _ (Nat.lt_of_lt_of_le (Tree.lt_size_of_outline? found) newer)

theorem conditionsJoins_nil : ConditionsJoins [] [] := by
  intro before after statement first ids declared others left _ _ _ joined _ done
  cases joined
  cases done
  exact ⟨rfl, gives_nil⟩

theorem conditionsJoins_cons
    {join : JoinOf Expression}
    {rest : List (JoinOf Expression)}
    {below later : List Form}
    (optionally : Optionally join.on forms)
    (nested : ConditionsJoins join.joins below)
    (siblings : ConditionsJoins rest later) :
    ConditionsJoins (join :: rest) (forms ++ below ++ later) := by
  intro before after statement first ids declared others left inside sound le joined blank done
  obtain ⟨field, aliasHint, name, direction, mode, on, inner, fetched⟩ := join
  cases joined with
  | @cons _ _ id ids belowIds laterIds body found nestedJoined othersJoined =>
      have order : id :: belowIds ++ laterIds ++ others =
          id :: (belowIds ++ (laterIds ++ others)) := by simp
      rw [order] at done
      obtain ⟨⟨⟩, conditioned, conditionDone, afterCondition⟩ := bind_eq_ok.mp done
      obtain ⟨remaining, nestedDraft, nestedDone, restDone⟩ := bind_eq_ok.mp afterCondition
      have blankBelow : before.Blank first ([id] ++ belowIds) := blank.left
      have own := gives_condition optionally inside sound le blankBelow.left conditionDone
      have nestedOwn := nestedJoined.of_keepsJoins (.of_keeps own.grows.keeps
        fun other member same => blankBelow.apart id List.mem_cons_self other member
          (List.mem_singleton.mp same).symm)
      obtain ⟨rfl, below⟩ := nested (own.grows.inside inside) (own.grows.sound sound)
        (Nat.le_trans le own.grows.evolves.size_le) nestedOwn (blankBelow.remaining own) nestedDone
      have both := own.append blankBelow below
      have othersBoth := othersJoined.of_keepsJoins (.of_keeps both.grows.keeps
        fun other member same => blank.apart other same other member rfl)
      obtain ⟨rfl, last⟩ := siblings (both.grows.inside inside) (both.grows.sound sound)
        (Nat.le_trans le both.grows.evolves.size_le) othersBoth (blank.remaining both) restDone
      exact ⟨rfl, both.append blank last⟩

theorem conditionsRoots_nil : ConditionsRoots [] [] := by
  intro before after statement first ids declared _ _ _ rooted _ _ done
  cases rooted
  cases done
  exact gives_nil

theorem conditionsRoots_cons
    {root : RootOf Expression}
    {rest : List (RootOf Expression)}
    (nested : ConditionsJoins root.joins forms)
    (siblings : ConditionsRoots rest others) :
    ConditionsRoots (root :: rest) (forms ++ others) := by
  intro before after statement first ids declared inside sound le rooted apart blank done
  obtain ⟨recordType, aliasHint, name, inner, fetched⟩ := root
  cases rooted with
  | @cons _ _ id ids belowIds laterIds body found unconditional nestedJoined othersRooted =>
      obtain ⟨remaining, nestedDraft, nestedDone, restDone⟩ := bind_eq_ok.mp done
      obtain ⟨rfl, below⟩ := nested inside sound le nestedJoined blank.left nestedDone
      have othersBelow := othersRooted.of_keeps below.grows.keeps
        (fun other member inBelow =>
          apart other (List.mem_cons_of_mem _ member) (List.mem_append_left _ inBelow))
        (.of_keeps below.grows.keeps fun other member same =>
          blank.apart other same other member rfl)
      have last := siblings (below.grows.inside inside) (below.grows.sound sound)
        (Nat.le_trans le below.grows.evolves.size_le) othersBelow
        (fun other member inLater =>
          apart other (List.mem_cons_of_mem _ member) (List.mem_append_right _ inLater))
        (blank.remaining below) restDone
      exact below.append blank last

end Drafting
end Document
end QueryGraph
