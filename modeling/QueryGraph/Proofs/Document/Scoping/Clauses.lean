import QueryGraph.Proofs.Document.Clauses
import QueryGraph.Proofs.Document.Scoping.Resolution

/-!
# What the clauses of a statement mean

A clause takes what its expressions have become, and these are scoped at the place of the statement.
A condition is scoped there as well, since all sources of the statement are declared before it.
-/

namespace QueryGraph

open Operation

namespace Document

variable {before between after : Draft} {place : Place} {statement : NodeId}
  {body : QueryGraph.Statement} {holds others : Tree -> Prop}

/-- A statement that was filled in part at its place, with what holds of every later tree that
retains what was made. -/
structure Draft.FilledAt
    (before : Draft)
    (place : Place)
    (body : QueryGraph.Statement)
    (after : Draft)
    (holds : Tree -> Prop) : Prop where
  makes : before.Makes place (fun other => other ≠ place.statement) after holds
  found : after.tree.outline? place.statement = some (.statement body)

theorem Draft.FilledAt.mono
    (filled : before.FilledAt place body after holds)
    (implies : ∀ later, holds later -> others later) :
    before.FilledAt place body after others :=
  ⟨filled.makes.imp implies, filled.found⟩

theorem Draft.At.unchanged
    (here : before.At place)
    (found : before.tree.outline? place.statement = some (.statement body))
    (holds : ∀ later, others later) :
    before.FilledAt place body before others :=
  ⟨.of_quiet here (.refl before _) (.refl before) fun later _ => holds later, found⟩

/-- A node that was made later than a statement is not that statement. -/
theorem Draft.At.ne_statement
    {id : NodeId}
    (here : before.At place)
    (newer : before.tree.size ≤ id.index) :
    id ≠ place.statement := by
  rintro rfl
  exact Nat.lt_irrefl _ (Nat.lt_of_lt_of_le here.older newer)

/-- Two steps that fill a statement, one after the other. -/
theorem Draft.FilledAt.onward
    {changed : QueryGraph.Statement}
    (earlier : before.FilledAt place body between holds)
    (here : before.At place)
    (later : between.FilledAt place changed after others) :
    before.FilledAt place changed after fun tree => holds tree ∧ others tree :=
  ⟨earlier.makes.andThen here later.makes (fun _ _ same => same) fun _ => here.ne_statement,
    later.found⟩

/-- What was made is taken into a clause of the statement. -/
theorem Draft.Makes.amended
    {tree : Tree}
    {change : Filling.Change}
    (earlier : before.Makes place (fun _ => True) between holds)
    (here : before.At place)
    (found : before.tree.outline? place.statement = some (.statement body))
    (amends : between.tree.Amends place.statement change tree)
    (uncorrelated : tree.correlated = between.tree.correlated) :
    before.FilledAt place (change body) { between with tree := tree } fun later =>
      holds later ∧ tree.Evolves later :=
  ⟨earlier.quietly here (.onTree amends.grows) ⟨rfl, uncorrelated⟩ fun _ => here.ne_statement,
    amends.amended _ (earlier.grows.keeps _ _ trivial found)⟩

namespace Drafting

/-! ## Clauses with several items -/

variable {put : List NodeId -> Filling.Change} {unknown more : List String -> List String}

/-- What an action comes to that puts one node into a clause of a statement. -/
def PutsScoped
    (statement : NodeId)
    (put : List NodeId -> Filling.Change)
    (action : Drafting α)
    (unknown : List String -> List String)
    (holds : Place -> Tree -> NodeId -> Prop) : Prop :=
  ∀ ⦃before : Draft⦄ ⦃place : Place⦄ ⦃body : QueryGraph.Statement⦄, before.At place ->
    place.statement = statement -> before.tree.outline? statement = some (.statement body) ->
      Ends (fun _ after => ∃ id,
          before.FilledAt place (put [id] body) after fun later => holds place later id)
        (Blames (unknown place.known)) (action before)

/-- What an action comes to that fills a clause of a statement that is ready for it. -/
def FillsScoped
    (statement : NodeId)
    (ready : QueryGraph.Statement -> Prop)
    (put : ι -> Filling.Change)
    (action : Drafting Unit)
    (unknown : List String -> List String)
    (holds : Place -> Tree -> ι -> Prop) : Prop :=
  ∀ ⦃before : Draft⦄ ⦃place : Place⦄ ⦃body : QueryGraph.Statement⦄, before.At place ->
    place.statement = statement -> before.tree.outline? statement = some (.statement body) ->
      ready body ->
        Ends (fun _ after => ∃ items,
            before.FilledAt place (put items body) after fun later => holds place later items)
          (Blames (unknown place.known)) (action before)

theorem fillsScoped_nil
    {holds : Place -> Tree -> List NodeId -> Prop}
    (appends : Filling.Appends put)
    (nil : ∀ place tree, holds place tree []) :
    FillsScoped statement (fun _ => True) put (pure ()) (fun _ => []) holds := by
  rintro before place body here rfl found -
  exact ⟨[], here.unchanged (by rwa [appends.none]) fun later => nil place later⟩

theorem fillsScoped_cons
    {step : Drafting α}
    {rest : Drafting Unit}
    {item : Place -> Tree -> NodeId -> Prop}
    {items all : Place -> Tree -> List NodeId -> Prop}
    (appends : Filling.Appends put)
    (puts : PutsScoped statement put step unknown item)
    (fills : FillsScoped statement (fun _ => True) put rest more items)
    (cons : ∀ place tree id ids, item place tree id -> items place tree ids ->
      all place tree (id :: ids)) :
    FillsScoped statement (fun _ => True) put (step >>= fun _ => rest)
      (fun known => unknown known ++ more known) all := by
  rintro before place body here rfl found -
  refine ends_seq (puts here rfl found) ?_
  rintro - between ⟨id, made⟩
  refine (fills (made.makes.here here) rfl made.found trivial).imp ?_ fun _ same => same
  rintro - after ⟨ids, listed⟩
  rw [appends.more] at listed
  exact ⟨id :: ids, (made.onward here listed).mono fun later both =>
    cons place later id ids both.1 both.2⟩

/-- An expression is put into a clause by an operation of the builder. -/
theorem putsScoped_add
    {item : Expression}
    {add : NodeId -> Build Unit}
    (first : Scopes item)
    (adds : ∀ ⦃before after : Tree⦄ ⦃id : NodeId⦄, add id before = .ok () after ->
      before.Amends statement (put [id]) after)
    (uncorrelating : ∀ id, Build.Uncorrelating (add id)) :
    PutsScoped statement put (do onTree (add (← expression item)))
      (fun known => unknownOfExpression known item) fun place tree id =>
        tree.ScopedExpression place item id := by
  rintro before place body here rfl found
  refine (first here).seq fun id between made => ends_onTree fun _ tree added => ?_
  have filled := made.amended here found (adds added) (uncorrelating id added)
  exact ⟨id, filled.mono fun _ both => both.1⟩

theorem putsScoped_order
    {term : OrderOf Expression}
    (first : Scopes term.expression) :
    PutsScoped statement Filling.orderList
      (do onTree (Build.orderBy statement (← expression term.expression) term.ascending))
      (fun known => unknownOfExpression known term.expression) fun place tree id =>
        ∃ inner, tree.node? id = some (.order inner term.ascending) ∧
          tree.ScopedExpression place term.expression inner := by
  rintro before place body here rfl found
  refine (first here).seq fun inner between made => ends_onTree fun id tree added => ?_
  obtain ⟨-, amends, -, orderFound⟩ := Build.of_orderBy added
  have filled := made.amended here found amends (Build.uncorrelating_orderBy _ added)
  exact ⟨id, filled.mono fun _ both => ⟨inner, both.2.node?_of_isFinal orderFound rfl, both.1⟩⟩

theorem putsScoped_assign
    {change : AssignmentOf Expression}
    (first : Scopes change.value) :
    PutsScoped statement Filling.assignments
      (do
        let target ← path change.target
        onTree (Build.assign statement target (← expression change.value)))
      (fun known => unknownHead known change.target ++ unknownOfExpression known change.value)
      fun place tree id =>
        ∃ target value, tree.node? id = some (.assignment target value) ∧
          tree.ScopedPath place change.target target ∧
          tree.ScopedExpression place change.value value := by
  rintro before place body here rfl found
  refine ends_seq (makes_path change.target here) fun target pathDraft reached => ?_
  refine (first (reached.here here)).seq fun value between made => ?_
  refine ends_onTree fun id tree added => ?_
  obtain ⟨-, amends, -, -, assignmentFound⟩ := Build.of_assign added
  have both := reached.andThen here made (fun _ _ same => same) fun _ _ => trivial
  have filled := both.amended here found amends (Build.uncorrelating_assign _ added)
  exact ⟨id, filled.mono fun _ all =>
    ⟨target, value, all.2.node?_of_isFinal assignmentFound rfl, all.1.1, all.1.2⟩⟩

/-! ## Clauses with one item -/

/-- An expression that may be absent is scoped wherever it is written. -/
def ScopesOption (item : Option Expression) : Prop := ∀ found ∈ item, Scopes found

theorem fillsScoped_option
    {ready : QueryGraph.Statement -> Prop}
    {put : Option NodeId -> Filling.Change}
    {item : Option Expression}
    {add : NodeId -> Build Unit}
    (first : ScopesOption item)
    (absent : ∀ body, ready body -> put none body = body)
    (adds : ∀ ⦃before after : Tree⦄ ⦃id : NodeId⦄ ⦃body : QueryGraph.Statement⦄,
      before.outline? statement = some (.statement body) -> ready body ->
        add id before = .ok () after -> before.Amends statement (put (some id)) after)
    (uncorrelating : ∀ id, Build.Uncorrelating (add id)) :
    FillsScoped statement ready put (optionalClause add item)
      (fun known => unknownOfOption known item) fun place tree id =>
        tree.ScopedOption place item id := by
  rintro before place body here rfl found isReady
  cases item with
  | none =>
      exact ⟨none, here.unchanged (by rwa [absent body isReady]) fun _ => .none⟩
  | some item =>
      refine (first item rfl here).seq fun id between made => ends_onTree fun _ tree added => ?_
      have foundBetween := made.grows.keeps place.statement _ trivial found
      have filled := made.amended here found (adds foundBetween isReady added)
        (uncorrelating id added)
      exact ⟨some id, filled.mono fun _ both => .some both.1⟩

theorem fillsScoped_restriction
    {item : Option Expression}
    (first : ScopesOption item) :
    FillsScoped statement (fun body => body.restriction = none) Filling.restriction
      (optionalClause (Build.restrict statement) item) (fun known => unknownOfOption known item)
      fun place tree id => tree.ScopedOption place item id := by
  refine fillsScoped_option first (fun body unrestricted => ?_) (fun _ _ _ _ found unrestricted
    done => Build.of_restrict found unrestricted done) fun _ => Build.uncorrelating_restrict
  rw [Filling.restriction, ← unrestricted]

theorem fillsScoped_groupRestriction
    {item : Option Expression}
    (first : ScopesOption item) :
    FillsScoped statement (fun body => body.groupRestriction = none) Filling.groupRestriction
      (optionalClause (Build.having statement) item) (fun known => unknownOfOption known item)
      fun place tree id => tree.ScopedOption place item id := by
  refine fillsScoped_option first (fun body unrestricted => ?_) (fun _ _ _ _ found unrestricted
    done => (Build.of_having found unrestricted done).2) fun _ => Build.uncorrelating_having
  rw [Filling.groupRestriction, ← unrestricted]

/-! ## Conditions -/

/-- A source that a step keeps has the same condition after it. -/
theorem condition?_of_keeps
    {first between last : Tree}
    {closed : NodeId -> Prop}
    {id : NodeId}
    {body : Source}
    (found : first.outline? id = some (.source body))
    (evolves : first.Evolves between)
    (keeps : between.Keeps closed last)
    (isClosed : closed id) :
    last.condition? id = between.condition? id := by
  obtain ⟨full, present, -⟩ := Tree.exists_of_outline?_source found
  obtain ⟨node, presentLater, same⟩ := evolves id _ present
  obtain ⟨later, rfl, -⟩ := Node.shape_eq_source same
  have outlined := Tree.outline?_of_node? presentLater
  rw [Tree.condition?_of_outline? outlined,
    Tree.condition?_of_outline? (keeps id _ isClosed outlined)]

end Drafting

/-- Conditions that were given to some joins, with what holds of every later tree in which the joins
have them. -/
def Draft.GivesScoped
    (before : Draft)
    (place : Place)
    (declared : List NodeId)
    (after : Draft)
    (holds : Tree -> Prop) : Prop :=
  before.Makes place (fun other => other ∉ declared) after fun later =>
    (∀ id ∈ declared, later.condition? id = after.tree.condition? id) -> holds later

namespace Draft

variable {middle : Draft} {first : Nat} {declared more : List NodeId}

/-- Joins keep having no condition while others are given theirs. -/
theorem Blank.left_over
    (blank : before.Blank first (declared ++ more))
    (gives : before.GivesScoped place declared middle holds) :
    middle.Blank first more :=
  blank.right.of_grows gives.grows fun id member inDeclared =>
    blank.apart id inDeclared id member rfl

/-- Conditions that were given first to some joins and then to others. -/
theorem GivesScoped.append
    (here : before.At place)
    (le : first ≤ before.tree.size)
    (blank : before.Blank first (declared ++ more))
    (earlier : before.GivesScoped place declared middle holds)
    (later : middle.GivesScoped place more after others) :
    before.GivesScoped place (declared ++ more) after fun tree => holds tree ∧ others tree := by
  have apart : ∀ id ∈ declared, id ∉ more := fun id inDeclared inMore =>
    blank.apart id inDeclared id inMore rfl
  have kept : ∀ id ∈ declared, after.tree.condition? id = middle.tree.condition? id := by
    intro id member
    obtain ⟨source, present, -⟩ := blank.unconditional id (List.mem_append_left _ member)
    exact Drafting.condition?_of_keeps present earlier.grows.evolves later.grows.keeps
      (apart id member)
  have wider : before.Makes place (fun other => other ∉ declared ++ more) middle _ :=
    earlier.mono (fun _ _ outside inDeclared => outside (List.mem_append_left _ inDeclared))
      fun _ same => same
  refine (wider.andThen here later
    (fun _ _ outside inMore => outside (List.mem_append_right _ inMore))
    fun id newer inMore => ?_).mono (fun _ _ same => same) ?_
  · have older := blank.older id (List.mem_append_right _ inMore)
    omega
  · rintro last ⟨earlierHolds, laterHolds⟩ same
    obtain ⟨sameDeclared, sameMore⟩ := List.forall_mem_append.mp same
    exact ⟨earlierHolds fun id member => (sameDeclared id member).trans (kept id member),
      laterHolds sameMore⟩

end Draft

namespace Drafting

/-- A join is given its condition, if it has one. -/
theorem ends_setOn
    {first : Nat}
    {join : NodeId}
    {on : Option Expression}
    (inner : ScopesOption on)
    (here : before.At place)
    (le : first ≤ before.tree.size)
    (blank : before.Blank first [join]) :
    Ends (fun _ after => before.GivesScoped place [join] after fun later =>
        later.ScopedOption place on (later.condition? join))
      (Blames (unknownOfOption place.known on))
      (optionalClause (Build.setOn join) on before) := by
  obtain ⟨body, found, unconditional⟩ := blank.unconditional join List.mem_cons_self
  cases on with
  | none =>
      refine .of_quiet here (.refl before _) (.refl before) fun later _ same => ?_
      change later.ScopedOption place none (later.condition? join)
      rw [same join List.mem_cons_self, Tree.condition?_of_outline? found, unconditional]
      exact .none
  | some item =>
      refine (inner item rfl here).seq fun id between made => ends_onTree fun _ tree added => ?_
      obtain ⟨grown, amended⟩ := Build.of_setOn added
      obtain ⟨later, foundLater, -, conditional⟩ :=
        amended body (made.grows.keeps join _ trivial found)
      have older := blank.older join List.mem_cons_self
      refine (made.quietly here (.onTree grown) ⟨rfl, Build.uncorrelating_setOn id added⟩
        fun other newer => ?_).mono (fun other _ outside same =>
          outside (List.mem_singleton.mpr same)) fun last both same => ?_
      · rintro rfl
        omega
      · change last.ScopedOption place (some item) (last.condition? join)
        rw [same join List.mem_cons_self,
          show tree.condition? join = _ from Tree.condition?_of_outline? foundLater, conditional]
        exact .some both.1

/-- What giving some joins of a document their conditions comes to. -/
def ConditionsScoped (list : List (JoinOf Expression)) : Prop :=
  ∀ ⦃before : Draft⦄ ⦃place : Place⦄ ⦃first : Nat⦄ ⦃ids declared remaining : List NodeId⦄,
    before.At place -> first ≤ before.tree.size -> before.tree.Joined list ids declared ->
      before.Blank first declared ->
        Ends (fun left after => left = remaining ∧
            before.GivesScoped place declared after fun later =>
              later.ScopedJoins place list declared)
          (Blames (unknownOfJoins place.known list))
          (joinConditions list (declared ++ remaining) before)

theorem conditionsScoped_nil : ConditionsScoped [] := by
  intro before place first ids declared remaining here _ joined _
  cases joined
  exact ⟨rfl, .of_quiet here (.refl before _) (.refl before) fun _ _ _ => .nil⟩

theorem conditionsScoped_cons
    {join : JoinOf Expression}
    {rest : List (JoinOf Expression)}
    (condition : ScopesOption join.on)
    (nested : ConditionsScoped join.joins)
    (siblings : ConditionsScoped rest) :
    ConditionsScoped (join :: rest) := by
  intro before place first ids declared remaining here le joined blank
  obtain ⟨field, aliasHint, name, direction, mode, on, inner, fetched⟩ := join
  cases joined with
  | @cons _ _ id ids below later body found nestedJoined othersJoined =>
      have order : id :: below ++ later ++ remaining =
          id :: (below ++ (later ++ remaining)) := by simp
      have blankBelow : before.Blank first ([id] ++ below) := blank.left
      rw [order, unknownOfJoins, List.append_assoc]
      refine ends_seq (ends_setOn condition here le blankBelow.left) fun _ conditioned own => ?_
      have nestedOwn := nestedJoined.of_keepsJoins (.of_keeps own.grows.keeps
        fun other member same => blankBelow.apart id List.mem_cons_self other member
          (List.mem_singleton.mp same).symm)
      refine ends_seq (nested (own.here here) (Nat.le_trans le own.grows.evolves.size_le)
        nestedOwn (blankBelow.left_over own)) ?_
      rintro _ nestedDraft ⟨rfl, given⟩
      have both := own.append here le blankBelow given
      have othersBoth := othersJoined.of_keepsJoins (.of_keeps both.grows.keeps
        fun other member same => blank.apart other same other member rfl)
      refine (siblings (both.here here) (Nat.le_trans le both.grows.evolves.size_le) othersBoth
        (blank.left_over both)).imp ?_ fun _ same => same
      rintro left after ⟨rfl, givenLater⟩
      refine ⟨rfl, (both.append here le blank givenLater).imp fun last all same => ?_⟩
      obtain ⟨⟨optional, below⟩, later⟩ := all same
      exact .cons optional below later

/-- What giving all joins of a statement their conditions comes to. -/
def ConditionsRootsScoped (list : List (RootOf Expression)) : Prop :=
  ∀ ⦃before : Draft⦄ ⦃place : Place⦄ ⦃first : Nat⦄ ⦃ids declared : List NodeId⦄,
    before.At place -> first ≤ before.tree.size -> before.tree.Rooted list ids declared ->
      (∀ id ∈ ids, id ∉ declared) -> before.Blank first declared ->
        Ends (fun _ after => before.GivesScoped place declared after fun later =>
            later.ScopedRoots place list declared)
          (Blames (unknownOfRoots place.known list)) (conditions list declared before)

theorem conditionsRootsScoped_nil : ConditionsRootsScoped [] := by
  intro before place first ids declared here _ rooted _ _
  cases rooted
  exact .of_quiet here (.refl before _) (.refl before) fun _ _ _ => .nil

theorem conditionsRootsScoped_cons
    {root : RootOf Expression}
    {rest : List (RootOf Expression)}
    (nested : ConditionsScoped root.joins)
    (siblings : ConditionsRootsScoped rest) :
    ConditionsRootsScoped (root :: rest) := by
  intro before place first ids declared here le rooted apart blank
  obtain ⟨recordType, aliasHint, name, inner, fetched⟩ := root
  cases rooted with
  | @cons _ _ id ids below later body found unconditional nestedJoined othersRooted =>
      refine ends_seq (nested here le nestedJoined blank.left) ?_
      rintro _ between ⟨rfl, given⟩
      have othersBelow := othersRooted.of_keeps given.grows.keeps
        (fun other member inBelow =>
          apart other (List.mem_cons_of_mem _ member) (List.mem_append_left _ inBelow))
        (.of_keeps given.grows.keeps fun other member same =>
          blank.apart other same other member rfl)
      refine (siblings (given.here here) (Nat.le_trans le given.grows.evolves.size_le) othersBelow
        (fun other member inLater =>
          apart other (List.mem_cons_of_mem _ member) (List.mem_append_right _ inLater))
        (blank.left_over given)).imp (fun _ after givenLater => ?_) fun _ same => same
      exact (given.append here le blank givenLater).imp fun last both same =>
        .cons (both same).1 (both same).2

end Drafting
end Document
end QueryGraph
