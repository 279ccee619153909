import QueryGraph.Proofs.Document.Scoping.Names

/-!
# What is made at a place

An action that is carried out in an open statement leaves scopes that know what they should, and
correlates sources for that statement alone. What it has made is scoped in every later tree that
keeps it, and the only unknown names that it may report are those that nothing around it declares.
-/

namespace QueryGraph

open Operation

/-! ## Trees that retain what was made -/

/-- A later tree that keeps all nodes from some number on, with what they correlate. -/
structure Tree.Retains
    (before : Tree)
    (first : Nat)
    (after : Tree) : Prop where
  evolves : before.Evolves after
  keeps : before.Keeps (fun id => first ≤ id.index) after
  correlated : before.KeepsCorrelated (fun id => first ≤ id.index) after
  rostered : after.Rostered

namespace Tree.Retains

variable {before between after : Tree} {first next : Nat} {closed wider : NodeId -> Prop}

theorem refl (rostered : before.Rostered) : before.Retains first before where
  evolves := .of_eq fun _ => rfl
  keeps := .refl before _
  correlated := .of_eq rfl
  rostered := rostered

theorem mono
    (retains : before.Retains first after)
    (le : first ≤ next) :
    before.Retains next after where
  evolves := retains.evolves
  keeps := retains.keeps.mono fun _ _ newer => Nat.le_trans le newer
  correlated := retains.correlated.mono fun _ _ newer => Nat.le_trans le newer
  rostered := retains.rostered

/-- A step that changes older nodes alone may come first. -/
theorem earlier
    (retains : between.Retains first after)
    (evolves : before.Evolves between)
    (keeps : before.Keeps closed between)
    (correlated : before.KeepsCorrelated wider between)
    (newer : ∀ id, first ≤ id.index -> closed id ∧ wider id) :
    before.Retains first after where
  evolves := evolves.trans retains.evolves
  keeps := (keeps.mono fun id _ isNew => (newer id isNew).1).trans retains.keeps
  correlated := (correlated.mono fun id _ isNew => (newer id isNew).2).andThen retains.correlated
    evolves.size_le fun _ _ isNew => isNew
  rostered := retains.rostered

end Tree.Retains

namespace Document

variable {before between after : Draft} {place : Place} {closed wider : NodeId -> Prop}
  {holds others : Tree -> Prop} {name : String} {id : NodeId}

/-! ## Places in a draft -/

theorem Draft.Sound.rostered (sound : before.Sound) : before.tree.Rostered := by
  obtain ⟨kind, changes⟩ := sound.made
  generalize before.tree = tree at changes
  induction changes with
  | refl => exact Tree.rostered_ofKind kind
  | tail _ change inductionHypothesis => exact inductionHypothesis.change change

/-- A draft whose innermost open statement is that of a place, with scopes that know what the
place declares. -/
structure Draft.At (draft : Draft) (place : Place) : Prop where
  inside : draft.Inside place.statement
  sound : draft.Sound
  knows : draft.tree.Knows draft.scopes place.tables

theorem Draft.At.exists_scope (here : before.At place) :
    ∃ scope scopes own correlated outer, before.scopes = scope :: scopes ∧
      place = ⟨scope.statement, own :: outer⟩ ∧
      scope.Knows before.tree outer own correlated ∧
      (∀ other ∈ scopes, other.statement.index < scope.statement.index) ∧
      before.tree.Knows scopes outer := by
  obtain ⟨statement, tables⟩ := place
  obtain ⟨inside, -, knows⟩ := here
  unfold Draft.Inside at inside
  generalize before.scopes = scopes at inside knows
  cases knows with
  | nil => cases inside
  | cons known older outer =>
      cases inside
      exact ⟨_, _, _, _, _, rfl, rfl, known, older, outer⟩

theorem Draft.At.older (here : before.At place) :
    place.statement.index < before.tree.size := by
  obtain ⟨scope, scopes, own, correlated, outer, -, rfl, knows, -⟩ := here.exists_scope
  exact knows.made

/-- What an action made at a place, and what holds of it in every later tree that retains it. -/
structure Draft.Makes
    (before : Draft)
    (place : Place)
    (closed : NodeId -> Prop)
    (after : Draft)
    (holds : Tree -> Prop) : Prop where
  grows : before.Grows closed after
  knows : after.tree.Knows after.scopes place.tables
  correlated : before.tree.KeepsCorrelated (fun id => id ≠ place.statement) after.tree
  holds : ∀ later, after.tree.Retains before.tree.size later -> holds later

namespace Draft.Makes

theorem here
    (makes : before.Makes place closed after holds)
    (here : before.At place) :
    after.At place where
  inside := makes.grows.inside here.inside
  sound := makes.grows.sound here.sound
  knows := makes.knows

/-- A step that leaves all names as they are. -/
theorem of_quiet
    (here : before.At place)
    (grows : before.Grows closed after)
    (quiet : before.Quiet after)
    (holds : ∀ later, after.tree.Evolves later -> others later) :
    before.Makes place closed after others where
  grows := grows
  knows := by
    rw [quiet.scopes]
    exact here.knows.of_evolves grows.evolves fun scope _ =>
      congrFun quiet.correlated scope.statement
  correlated := .of_eq quiet.correlated
  holds later retains := holds later retains.evolves

theorem mono
    (makes : before.Makes place wider after holds)
    (narrower : ∀ id, id.index < before.tree.size -> closed id -> wider id)
    (implies : ∀ later, holds later -> others later) :
    before.Makes place closed after others where
  grows := makes.grows.mono narrower
  knows := makes.knows
  correlated := makes.correlated
  holds later retains := implies later (makes.holds later retains)

theorem imp
    (makes : before.Makes place closed after holds)
    (implies : ∀ later, holds later -> others later) :
    before.Makes place closed after others :=
  makes.mono (fun _ _ same => same) implies

/-- What was made first is retained by what follows, where that changes older nodes alone. -/
theorem andThen
    (here : before.At place)
    (earlier : before.Makes place closed between holds)
    (later : between.Makes place wider after others)
    (narrower : ∀ id, id.index < before.tree.size -> closed id -> wider id)
    (newer : ∀ id, before.tree.size ≤ id.index -> wider id) :
    before.Makes place closed after fun tree => holds tree ∧ others tree where
  grows := earlier.grows.andThen later.grows narrower
  knows := later.knows
  correlated := earlier.correlated.andThen later.correlated earlier.grows.evolves.size_le
    fun _ _ differs => differs
  holds tree retains := by
    refine ⟨earlier.holds tree ?_, later.holds tree (retains.mono earlier.grows.evolves.size_le)⟩
    refine retains.earlier later.grows.evolves later.grows.keeps later.correlated fun id isNew =>
      ⟨newer id isNew, ?_⟩
    rintro rfl
    exact Nat.lt_irrefl _ (Nat.lt_of_lt_of_le here.older isNew)

/-- A step without names follows, which may change older nodes alone. -/
theorem quietly
    (here : before.At place)
    (earlier : before.Makes place (fun _ => True) between holds)
    (grows : between.Grows closed after)
    (quiet : between.Quiet after)
    (newer : ∀ id, before.tree.size ≤ id.index -> closed id) :
    before.Makes place closed after fun later => holds later ∧ after.tree.Evolves later :=
  (earlier.mono (fun _ _ _ => trivial) fun _ same => same).andThen here
    (.of_quiet (earlier.here here) grows quiet fun _ evolves => evolves)
    (fun _ _ same => same) newer

end Draft.Makes

/-- An error that reports no unknown name but one of a list. -/
def Blames
    (names : List String)
    (error : DocumentError) : Prop :=
  ∀ name, error = .unknownAlias name -> name ∈ names

theorem Blames.subset
    {names more : List String}
    {error : DocumentError}
    (blames : Blames names error)
    (subset : names ⊆ more) :
    Blames more error :=
  fun name same => subset (blames name same)

namespace Drafting

/-- What an action comes to that is carried out at any place. -/
def Makes
    (action : Drafting α)
    (unknown : List String -> List String)
    (holds : Place -> Tree -> α -> Prop) : Prop :=
  ∀ ⦃before : Draft⦄ ⦃place : Place⦄, before.At place ->
    Ends (fun value after => before.Makes place (fun _ => True) after fun later =>
      holds place later value) (Blames (unknown place.known)) (action before)

theorem Makes.imp
    {action : Drafting α}
    {unknown : List String -> List String}
    {holds others : Place -> Tree -> α -> Prop}
    (makes : Makes action unknown holds)
    (implies : ∀ place tree value, holds place tree value -> others place tree value) :
    Makes action unknown others :=
  fun _ place here => Operation.Ends.imp (makes here)
    (fun value _ made => made.imp fun later => implies place later value) fun _ same => same

variable {names : List String}

/-- An operation of the builder reports no unknown name. -/
theorem ends_onTree
    {action : Build α}
    {fact : α -> Draft -> Prop}
    (facts : ∀ value tree, action before.tree = .ok value tree ->
      fact value { before with tree := tree }) :
    Ends fact (Blames names) (onTree action before) := by
  unfold onTree
  cases done : action before.tree with
  | ok value tree => exact facts value tree done
  | error error tree => rintro name ⟨⟩

/-- What follows a step reports names of its own. -/
theorem ends_seq
    {more : List String}
    {first : Drafting α}
    {rest : α -> Drafting β}
    {fact : α -> Draft -> Prop}
    {goal : β -> Draft -> Prop}
    (ends : Ends fact (Blames names) (first before))
    (next : ∀ value between, fact value between ->
      Ends goal (Blames more) (rest value between)) :
    Ends goal (Blames (names ++ more)) ((first >>= rest) before) :=
  Ends.bind (ends.imp
    (fun value between holds => (next value between holds).imp (fun _ _ same => same)
      fun _ blames => blames.subset (List.subset_append_right _ _))
    fun _ blames => blames.subset (List.subset_append_left _ _))

/-! ## Looking up a name -/

theorem lookup_eq_ok (done : lookup name before = .ok id after) :
    ∃ scope outer, before.scopes = scope :: outer ∧
      (scope.find? name = some id ∧ after = before ∨
        scope.find? name = none ∧ ∃ source tree,
          (outer.findSome? fun scope => scope.find? name) = some source ∧
          Build.correlate scope.statement source before.tree = .ok id tree ∧
          after = { before with tree := tree, scopes := scope.insert name id :: outer }) := by
  unfold lookup at done
  rw [bind_of_ok (get_apply before)] at done
  cases scopes : before.scopes with
  | nil =>
      simp only [scopes] at done
      cases done
  | cons scope outer =>
      refine ⟨scope, outer, rfl, ?_⟩
      simp only [scopes] at done
      cases found : scope.find? name with
      | some source =>
          simp only [found] at done
          cases done
          exact Or.inl ⟨rfl, rfl⟩
      | none =>
          simp only [found] at done
          cases outerFound : outer.findSome? fun scope => scope.find? name with
          | none =>
              simp only [outerFound] at done
              cases done
          | some source =>
              simp only [outerFound] at done
              obtain ⟨correlated, between, built, rest⟩ := bind_eq_ok.mp done
              obtain ⟨tree, correlates, rfl⟩ := onTree_eq_ok built
              obtain ⟨⟨⟩, last, bound, same⟩ := bind_eq_ok.mp rest
              cases same
              unfold bind at bound
              rw [modify_apply] at bound
              simp only [scopes] at bound
              cases bound
              exact Or.inr ⟨rfl, source, tree, rfl, correlates, rfl⟩

theorem lookup_eq_unknownAlias
    {unknown : String}
    (refused : lookup name before = .error (.unknownAlias unknown) after) :
    unknown = name ∧ (before.scopes.findSome? fun scope => scope.find? name) = none := by
  unfold lookup at refused
  rw [bind_of_ok (get_apply before)] at refused
  cases scopes : before.scopes with
  | nil =>
      simp only [scopes] at refused
      cases refused
      exact ⟨rfl, rfl⟩
  | cons scope outer =>
      simp only [scopes] at refused
      rw [List.findSome?_cons]
      cases found : scope.find? name with
      | some source =>
          simp only [found] at refused
          cases refused
      | none =>
          simp only [found] at refused
          cases outerFound : outer.findSome? fun scope => scope.find? name with
          | none =>
              simp only [outerFound] at refused
              cases refused
              exact ⟨rfl, rfl⟩
          | some source =>
              simp only [outerFound] at refused
              have ends : Ends (fun _ _ => True) (Blames []) ((do
                  let correlated ← onTree (Build.correlate scope.statement source)
                  bind name correlated
                  return correlated : Drafting NodeId) before) :=
                Ends.bind (ends_onTree fun _ _ _ => trivial)
              exact absurd (ends.of_error refused unknown rfl) List.not_mem_nil

/-- A name that is looked up is found as it means, and is unknown where nothing declares it. -/
theorem ends_lookup (here : before.At place) :
    Ends (fun id after => before.Makes place (fun _ => True) after fun later =>
        later.HasSource place.statement id ∧ later.Means place.tables name id)
      (Blames ([name].filter fun head => head ∉ place.known)) (lookup name before) := by
  cases done : lookup name before with
  | error error after =>
      rintro unknown rfl
      obtain ⟨rfl, missing⟩ := lookup_eq_unknownAlias done
      have fresh : unknown ∉ place.known := here.knows.not_mem_of_findSome? missing
      simp [fresh]
  | ok id after =>
      obtain ⟨grows, isSource⟩ : before.Grows (fun _ => True) after ∧ _ :=
        of_lookup here.inside here.sound done
      obtain ⟨scope, outer, found, outcome⟩ := lookup_eq_ok done
      obtain ⟨_, _, own, correlated, tables, same, rfl, knows, older, outerKnows⟩ :=
        here.exists_scope
      rw [found] at same
      cases same
      rcases outcome with ⟨known, rfl⟩ | ⟨fresh, source, tree, outerFound, correlates, rfl⟩
      · exact .of_quiet here grows (.refl _) fun later evolves =>
          ⟨isSource.of_evolves evolves, (knows.means_of_find? known).of_evolves evolves⟩
      · obtain ⟨grown, correlatedFound⟩ : before.tree.Grows (fun _ => True) tree ∧ _ :=
          Build.of_correlate correlates
        obtain ⟨sameList, otherLists⟩ := Build.correlated_correlate correlates
        obtain ⟨_, -, isNext, -⟩ := Build.correlate_eq_ok correlates
        have evolves : before.tree.Evolves tree := grown.changes.evolves
        have larger : before.tree.size < tree.size := by
          have inside := Tree.lt_size_of_node? correlatedFound
          rwa [isNext] at inside
        have means : tree.Means tables name id := by
          obtain ⟨declared, meaning, resolved⟩ := outerKnows.means outerFound
          exact ⟨declared, meaning,
            evolves.resolveCorrelation_correlated larger correlatedFound rfl resolved⟩
        have knowsLater := knows.insert evolves fresh means sameList
        have inScope : (scope.insert name id).find? name = some id := List.lookup_cons_self
        refine {
          grows := grows
          knows := .cons knowsLater older (outerKnows.of_evolves evolves fun other member => ?_)
          correlated := fun other _ differs => otherLists other differs
          holds := fun later retains => ⟨isSource.of_evolves retains.evolves,
            (knowsLater.means_of_find? inScope).of_evolves retains.evolves⟩ }
        refine otherLists _ fun same => ?_
        exact Nat.lt_irrefl _ (same ▸ older other member)

/-! ## Paths -/

theorem ends_fields
    {text : String}
    {source : NodeId}
    {earlier path : List String}
    (reads : before.tree.ReadsFrom source earlier id) :
    Ends (fun last after => after.tree.ReadsFrom source (earlier ++ path) last) (Blames names)
      (fields text id path before) := by
  induction path generalizing before id earlier with
  | nil =>
      rw [List.append_nil]
      exact reads
  | cons field rest inductionHypothesis =>
      unfold fields
      split
      · rintro name ⟨⟩
      · refine Ends.bind (ends_onTree fun next tree accessed => ?_)
        obtain ⟨grown, found⟩ : before.tree.Grows (fun _ => True) tree ∧ _ :=
          Build.of_access accessed
        have readsNext : tree.ReadsFrom source (earlier ++ [field]) next :=
          .field found (reads.of_evolves grown.changes.evolves)
        have further := @inductionHypothesis { before with tree := tree } _ _ readsNext
        rwa [List.append_assoc] at further

/-- A path is scoped where it is written. -/
theorem makes_path (text : String) :
    Makes (path text) (fun known => unknownHead known text) fun place tree id =>
      tree.ScopedPath place text id := by
  intro before place here
  unfold path unknownHead
  cases parts : segments text with
  | nil => rintro name ⟨⟩
  | cons head rest =>
      dsimp only
      split
      · rintro name ⟨⟩
      · refine (ends_lookup here).seq fun source between looked => ?_
        have reached := looked.here here
        obtain ⟨body, found, inside⟩ := (looked.holds _ (.refl reached.sound.rostered)).1
        have ends : Ends (fun last after => after.tree.ReadsFrom source ([] ++ rest) last)
            (Blames []) (fields text source rest between) := ends_fields .source
        refine Ends.of_done (ends.imp (fun _ _ _ => trivial) fun _ blames =>
          blames.subset (List.nil_subset _)) fun id after done => ?_
        have reads := ends.of_ok done
        obtain ⟨grows, -, -⟩ : between.Grows (fun _ => True) after ∧ _ :=
          of_fields reached.sound (Tree.HasSource.reaches ⟨body, found, inside⟩)
            (.source found) done
        refine (looked.quietly here grows (quiet_fields done) fun _ _ => trivial).mono
          (fun _ _ _ => trivial) ?_
        rintro later ⟨⟨hereLater, means⟩, evolves⟩
        exact ⟨head, rest, source, parts, reads.of_evolves evolves, hereLater, means⟩

/-! ## Expressions -/

/-- An expression of a document is scoped wherever it is written. -/
def Scopes (item : Expression) : Prop :=
  Makes (expression item) (fun known => unknownOfExpression known item) fun place tree id =>
    tree.ScopedExpression place item id

/-- Expressions of a document are scoped wherever they are written. -/
def ScopesAll (items : List Expression) : Prop :=
  Makes (expressions items) (fun known => unknownOfExpressions known items) fun place tree ids =>
    tree.ScopedExpressions place items ids

theorem scopes_path (text : String) : Scopes (.path text) :=
  (makes_path text).imp fun _ _ _ reads => .path reads

theorem scopes_parameter (name : String) : Scopes (.parameter name) := by
  intro before place here
  have ends : Ends (fun _ _ => True) (Blames []) (parameter name before) := by
    unfold parameter
    rw [bind_of_ok (get_apply before)]
    cases before.parameters.lookup name with
    | some existing => trivial
    | none => exact Ends.bind (ends_onTree fun _ _ _ => trivial)
  refine Ends.of_done ends fun id after done => ?_
  obtain ⟨grows, found⟩ := of_parameter here.sound done
  exact .of_quiet here grows (quiet_parameter done) fun later evolves =>
    .parameter (evolves.node?_of_isFinal found rfl)

theorem scopes_anonymous (label : String) : Scopes (.anonymous label) := by
  intro before place here
  have ends : Ends (fun _ _ => True) (Blames []) (anonymous label before) := by
    unfold anonymous
    rw [bind_of_ok (get_apply before)]
    cases before.labels.lookup label with
    | some existing => trivial
    | none => exact Ends.bind (ends_onTree fun _ _ _ => trivial)
  refine Ends.of_done ends fun id after done => ?_
  obtain ⟨grows, -, found⟩ := of_anonymous here.sound done
  exact .of_quiet here grows (quiet_anonymous done) fun later evolves =>
    .anonymous (evolves.node?_of_isFinal found rfl)

theorem scopes_literal (value : Literal) : Scopes (.literal value) := by
  intro before place here
  refine ends_onTree fun id tree built => ?_
  obtain ⟨grown, found⟩ := Build.of_literal built
  exact .of_quiet here (.onTree grown) ⟨rfl, Build.uncorrelating_literal value built⟩
    fun later evolves => .literal (evolves.node?_of_isFinal found rfl)

theorem scopes_treat
    {target : Expression}
    (inner : Scopes target)
    (asType : String) :
    Scopes (.treat target asType) := by
  intro before place here
  refine (inner here).seq fun id between makes => ends_onTree fun treated tree built => ?_
  obtain ⟨-, grown, found⟩ := Build.of_treat built
  have quiet : between.Quiet { between with tree := tree } :=
    ⟨rfl, Build.uncorrelating_treat asType built⟩
  exact (makes.quietly here (.onTree grown) quiet fun _ _ => trivial).imp fun later both =>
    .treat (both.2.node?_of_isFinal found rfl) both.1

/-- An operator is applied to expressions. -/
theorem makes_expression
    {items : List Expression}
    (inner : ScopesAll items)
    (operator : Operator) :
    Makes (do onTree (Build.expression operator (← expressions items)))
      (fun known => unknownOfExpressions known items) fun place tree id =>
        ∃ operands, tree.node? id = some (.expression operator operands) ∧
          tree.ScopedExpressions place items operands := by
  intro before place here
  refine (inner here).seq fun operands between makes => ends_onTree fun id tree built => ?_
  obtain ⟨-, -, grown, found⟩ := Build.of_expression built
  have quiet : between.Quiet { between with tree := tree } :=
    ⟨rfl, Build.uncorrelating_expression operator operands built⟩
  exact (makes.quietly here (.onTree grown) quiet fun _ _ => trivial).imp fun later both =>
    ⟨operands, both.2.node?_of_isFinal found rfl, both.1⟩

theorem scopes_tuple
    {items : List Expression}
    (inner : ScopesAll items) :
    Scopes (.tuple items) := by
  refine (makes_expression inner .tuple).imp ?_
  rintro place tree id ⟨operands, found, inside⟩
  exact .tuple found inside

theorem scopes_apply
    {items : List Expression}
    (inner : ScopesAll items)
    (name : String) :
    Scopes (.apply name items) := by
  intro before place here
  change Ends _ _ ((operator name >>= fun operator => _) before)
  unfold operator
  cases named : Operator.ofText? name with
  | none => rintro name ⟨⟩
  | some operator =>
      have applies : Makes _ _ fun place tree id =>
          tree.ScopedExpression place (.apply name items) id :=
        (makes_expression inner operator).imp fun _ _ _ made => by
          obtain ⟨operands, found, inside⟩ := made
          exact .apply named found inside
      exact applies here

theorem scopesAll_nil : ScopesAll [] :=
  fun before _ here => .of_quiet here (.refl before _) (.refl before) fun _ _ => .nil

theorem scopesAll_cons
    {item : Expression}
    {items : List Expression}
    (first : Scopes item)
    (rest : ScopesAll items) :
    ScopesAll (item :: items) := by
  intro before place here
  refine ends_seq (first here) fun id between made => ?_
  refine (rest (made.here here)).seq fun ids after listed => ?_
  exact (made.andThen here listed (fun _ _ same => same) fun _ _ => trivial).imp fun later both =>
    .cons both.1 both.2

end Drafting
end Document
end QueryGraph
