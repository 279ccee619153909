import QueryGraph.Proofs.Document.Forms
import QueryGraph.Proofs.Tree.Outcome
import QueryGraph.Proofs.Walk.Marks

/-!
# Drafts of a tree

While a tree is built from a document, the names in a scope mean sources of its statement, and the
placeholders of the tree are those of the tables. A step keeps this, and it keeps the outlines of
all nodes but a few.
-/

namespace QueryGraph

open Operation

/-- A source of a statement. -/
def Tree.HasSource
    (tree : Tree)
    (statement id : NodeId) : Prop :=
  ∃ body, tree.node? id = some (.source body) ∧ body.statement = statement

theorem Tree.HasSource.of_evolves
    {before after : Tree}
    {statement id : NodeId}
    (isSource : before.HasSource statement id)
    (evolves : before.Evolves after) :
    after.HasSource statement id := by
  obtain ⟨body, found, here⟩ := isSource
  obtain ⟨later, foundLater, same⟩ := evolves id _ found
  obtain ⟨newer, rfl, sameStatement, -⟩ := Node.shape_eq_source same
  exact ⟨newer, foundLater, sameStatement.trans here⟩

theorem Tree.HasSource.reaches
    {tree : Tree}
    {statement id : NodeId}
    (isSource : tree.HasSource statement id) :
    tree.Reaches statement id := by
  obtain ⟨body, found, rfl⟩ := isSource
  exact Tree.reaches_of_source found

namespace Document

/-- A draft whose tables agree with its tree. -/
structure Draft.Sound (draft : Draft) : Prop where
  made : ∃ kind, (Tree.ofKind kind).Changes draft.tree
  /-- The names in a scope mean sources of its statement. -/
  scopes : ∀ scope ∈ draft.scopes, ∀ entry ∈ scope.names,
    draft.tree.HasSource scope.statement entry.2
  /-- The named placeholder of a name is the one that the table has. -/
  named : ∀ id name, draft.tree.node? id = some (.parameter (some name)) ->
    draft.parameters.lookup name = some id
  parameters : ∀ name id, draft.parameters.lookup name = some id ->
    draft.tree.node? id = some (.parameter (some name))
  labels : ∀ label id, draft.labels.lookup label = some id ->
    draft.tree.node? id = some (.parameter none)
  distinct : ∀ label other id, draft.labels.lookup label = some id ->
    draft.labels.lookup other = some id -> label = other

/-- A later draft with the same open statements, in which some nodes have kept their outlines. -/
structure Draft.Grows
    (before : Draft)
    (closed : NodeId -> Prop)
    (after : Draft) : Prop where
  changes : before.tree.Changes after.tree
  keeps : before.tree.Keeps closed after.tree
  statements : after.scopes.map Scope.statement = before.scopes.map Scope.statement
  labels : ∀ label id, before.labels.lookup label = some id -> after.labels.lookup label = some id
  sound : before.Sound -> after.Sound

/-- A draft whose innermost open statement is given. -/
def Draft.Inside (draft : Draft) (statement : NodeId) : Prop :=
  (draft.scopes.map Scope.statement).head? = some statement

variable {draft before between after : Draft} {closed wider : NodeId -> Prop}
  {statement id source : NodeId} {name : String}

namespace Draft

theorem Sound.orderly (sound : draft.Sound) : draft.tree.Orderly := by
  obtain ⟨kind, changes⟩ := sound.made
  have reachable : (Tree.ofKind kind).Reachable := ⟨kind, [], rfl⟩
  exact reachable.orderly.changes changes

/-- A step of the builder that makes no named placeholder. -/
theorem Sound.of_changes
    {tree : Tree}
    (sound : draft.Sound)
    (changes : draft.tree.Changes tree)
    (plain : ∀ id name, tree.node? id = some (.parameter (some name)) ->
      draft.tree.node? id = some (.parameter (some name))) :
    ({ draft with tree := tree } : Draft).Sound where
  made := sound.made.imp fun _ earlier => earlier.trans changes
  scopes scope member entry inScope :=
    (sound.scopes scope member entry inScope).of_evolves changes.evolves
  named id name found := sound.named id name (plain id name found)
  parameters name id found := changes.evolves.node?_of_isFinal (sound.parameters name id found) rfl
  labels label id found := changes.evolves.node?_of_isFinal (sound.labels label id found) rfl
  distinct := sound.distinct

namespace Grows

theorem refl (draft : Draft) (closed : NodeId -> Prop) : draft.Grows closed draft where
  changes := Tree.Changes.refl draft.tree
  keeps := Tree.Keeps.refl draft.tree closed
  statements := rfl
  labels _ _ found := found
  sound sound := sound

/-- The second of two steps may touch whatever the first one has made. -/
theorem andThen
    (earlier : before.Grows closed between)
    (later : between.Grows wider after)
    (narrower : ∀ id, id.index < before.tree.size -> closed id -> wider id) :
    before.Grows closed after where
  changes := earlier.changes.trans later.changes
  keeps := earlier.keeps.andThen later.keeps narrower
  statements := later.statements.trans earlier.statements
  labels label id found := later.labels label id (earlier.labels label id found)
  sound sound := later.sound (earlier.sound sound)

theorem trans
    (earlier : before.Grows closed between)
    (later : between.Grows closed after) :
    before.Grows closed after :=
  earlier.andThen later fun _ _ isClosed => isClosed

theorem mono
    (grows : before.Grows wider after)
    (narrower : ∀ id, id.index < before.tree.size -> closed id -> wider id) :
    before.Grows closed after :=
  { grows with keeps := grows.keeps.mono narrower }

theorem evolves (grows : before.Grows closed after) : before.tree.Evolves after.tree :=
  grows.changes.evolves

theorem inside
    (grows : before.Grows closed after)
    (inside : before.Inside statement) :
    after.Inside statement := by
  unfold Inside at inside ⊢
  rwa [grows.statements]

/-- A step of the builder that makes no placeholder. -/
theorem onTree
    {tree : Tree}
    (grows : draft.tree.Grows closed tree) :
    draft.Grows closed { draft with tree := tree } where
  changes := grows.changes
  keeps := grows.keeps
  statements := rfl
  labels _ _ found := found
  sound sound := sound.of_changes grows.changes fun id name => grows.plain id (some name)

end Grows
end Draft

namespace Drafting

theorem onTree_eq_ok
    {action : Build α}
    {value : α}
    (done : onTree action before = .ok value after) :
    ∃ tree, action before.tree = .ok value tree ∧ after = { before with tree := tree } := by
  unfold onTree at done
  cases result : action before.tree with
  | ok outcome tree =>
      rw [result] at done
      cases done
      exact ⟨tree, rfl, rfl⟩
  | error error tree =>
      rw [result] at done
      cases done

/-! ## Names -/

/-- Binding a name to a source of the open statement. -/
theorem of_bind
    (inside : before.Inside statement)
    (isSource : before.tree.HasSource statement source)
    (done : bind name source before = .ok () after) :
    before.Grows closed after ∧ after.tree = before.tree := by
  obtain ⟨tree, scopes, parameters, labels⟩ := before
  unfold Draft.Inside at inside
  cases scopes with
  | nil => cases inside
  | cons scope outer =>
      cases done
      refine ⟨⟨Tree.Changes.refl tree, Tree.Keeps.refl tree closed, rfl, fun _ _ found => found,
        fun sound => { sound with scopes := ?_ }⟩, rfl⟩
      obtain rfl : scope.statement = statement := Option.some.inj inside
      refine List.forall_mem_cons.mpr ⟨List.forall_mem_cons.mpr ⟨isSource, ?_⟩, ?_⟩
      · exact sound.scopes scope List.mem_cons_self
      · exact fun other member => sound.scopes other (List.mem_cons_of_mem _ member)

theorem of_declare
    {given : Option String}
    (inside : before.Inside statement)
    (isSource : before.tree.HasSource statement source)
    (done : declare given source before = .ok () after) :
    before.Grows closed after ∧ after.tree = before.tree := by
  cases given with
  | none =>
      cases done
      exact ⟨.refl _ closed, rfl⟩
  | some name =>
      change (if before.scopes.head?.any fun scope => (scope.find? name).isSome then
        throw (.duplicateAlias name) else bind name source : Drafting Unit) before = _ at done
      split at done
      · cases done
      · exact of_bind inside isSource done

/-- A name means a source of the open statement. -/
theorem of_lookup
    (inside : before.Inside statement)
    (sound : before.Sound)
    (done : lookup name before = .ok id after) :
    before.Grows closed after ∧ after.tree.HasSource statement id := by
  unfold lookup at done
  rw [bind_of_ok (get_apply before)] at done
  unfold Draft.Inside at inside
  cases scopes : before.scopes with
  | nil =>
      rw [scopes] at inside
      cases inside
  | cons scope outer =>
      rw [scopes] at inside
      obtain rfl : scope.statement = statement := Option.some.inj inside
      rw [scopes] at done
      cases found : scope.find? name with
      | some source =>
          simp only [found] at done
          cases done
          have member : scope ∈ before.scopes := by
            rw [scopes]
            exact List.mem_cons_self
          exact ⟨.refl before closed, sound.scopes scope member _ (Entries.mem_of_lookup found)⟩
      | none =>
          simp only [found] at done
          cases outerFound : outer.findSome? fun scope => scope.find? name with
          | none =>
              simp only [outerFound] at done
              cases done
          | some source =>
              simp only [outerFound] at done
              obtain ⟨correlated, between, built, rest⟩ := bind_eq_ok.mp done
              obtain ⟨⟨⟩, last, bound, same⟩ := bind_eq_ok.mp rest
              cases same
              obtain ⟨tree, correlates, rfl⟩ := onTree_eq_ok built
              obtain ⟨grows, isCorrelated⟩ := Build.of_correlate correlates
              have drafted : before.Grows closed { before with tree := tree } := .onTree grows
              have insideLater : ({ before with tree := tree } : Draft).Inside scope.statement := by
                unfold Draft.Inside
                rw [scopes]
                rfl
              obtain ⟨named, sameTree⟩ := of_bind insideLater ⟨_, isCorrelated, rfl⟩ bound
              exact ⟨drafted.trans named, by rw [sameTree]; exact ⟨_, isCorrelated, rfl⟩⟩

/-- Suggesting an alias of a source of the open statement and declaring it. -/
theorem of_introduce
    {aliasHint given : Option String}
    (inside : before.Inside statement)
    (isSource : before.tree.HasSource statement source)
    (done : introduce source aliasHint given before = .ok () after) :
    before.Grows closed after := by
  unfold introduce at done
  cases aliasHint with
  | none => exact (of_declare inside isSource done).1
  | some text =>
      obtain ⟨⟨⟩, between, suggested, declared⟩ := bind_eq_ok.mp done
      obtain ⟨tree, built, rfl⟩ := onTree_eq_ok suggested
      have grows : before.Grows closed { before with tree := tree } :=
        .onTree (Build.of_setAlias built)
      exact grows.trans
        (of_declare (grows.inside inside) (isSource.of_evolves grows.evolves) declared).1

/-! ## Paths and placeholders -/

theorem of_fields
    {text : String}
    {earlier path : List String}
    (sound : before.Sound)
    (reaches : before.tree.Reaches statement id)
    (accesses : before.tree.Accesses earlier id)
    (done : fields text id path before = .ok source after) :
    before.Grows closed after ∧ after.tree.Reaches statement source ∧
      after.tree.Accesses (earlier ++ path) source := by
  induction path generalizing before id earlier with
  | nil =>
      cases done
      rw [List.append_nil]
      exact ⟨.refl _ closed, reaches, accesses⟩
  | cons field rest inductionHypothesis =>
      unfold fields at done
      split at done
      · cases done
      · obtain ⟨next, between, built, last⟩ := bind_eq_ok.mp done
        obtain ⟨tree, accessed, rfl⟩ := onTree_eq_ok built
        obtain ⟨grown, found⟩ := Build.of_access accessed
        have grows : before.Grows closed { before with tree := tree } := .onTree grown
        have soundLater := grows.sound sound
        have reachesLater : tree.Reaches statement next :=
          (reaches.of_evolves grows.evolves).step soundLater.orderly.placed
            (Or.inl ⟨field, found⟩)
        have accessesLater : tree.Accesses (earlier ++ [field]) next :=
          .field found (accesses.of_evolves grows.evolves)
        obtain ⟨growsLater, reached, all⟩ :=
          inductionHypothesis soundLater reachesLater accessesLater last
        rw [List.append_assoc, List.singleton_append] at all
        exact ⟨grows.trans growsLater, reached, all⟩

/-- A path leads to a source of the open statement, and is spelled as it is written. -/
theorem of_path
    {text : String}
    (inside : before.Inside statement)
    (sound : before.Sound)
    (done : path text before = .ok id after) :
    before.Grows closed after ∧ after.tree.Reaches statement id ∧
      after.tree.Spells id (.path text) := by
  unfold path at done
  cases parts : segments text with
  | nil =>
      rw [parts] at done
      cases done
  | cons head rest =>
      simp only [parts] at done
      split at done
      · cases done
      · obtain ⟨source, between, looked, last⟩ := bind_eq_ok.mp done
        obtain ⟨grows, isSource⟩ := of_lookup inside sound looked
        have starts := isSource.reaches
        obtain ⟨body, found, -⟩ := isSource
        obtain ⟨growsLater, reaches, accesses⟩ :=
          of_fields (grows.sound sound) starts (.source found) last
        exact ⟨grows.trans growsLater, reaches, .path parts accesses⟩

/-- A key is found first where it was entered last. -/
theorem lookup_cons_eq_some
    {entries : List (String × NodeId)}
    {key other : String} :
    ((key, source) :: entries).lookup other = some id ↔
      other = key ∧ source = id ∨ other ≠ key ∧ entries.lookup other = some id := by
  rw [List.lookup_cons]
  by_cases same : other = key
  · simp [same]
  · simp [same, beq_false_of_ne same]

/-- A placeholder is added at the end of the tree. -/
theorem node?_push_parameter
    {tree : Tree}
    {kind other : Option String} :
    (tree.push (.parameter kind)).node? id = some (.parameter other) ↔
      id = ⟨tree.size⟩ ∧ kind = other ∨
        id ≠ ⟨tree.size⟩ ∧ tree.node? id = some (.parameter other) := by
  rw [Tree.node?_push]
  have same : id = ⟨tree.size⟩ ↔ id.index = tree.size := by
    cases id
    simp
  by_cases new : id.index = tree.size
  · simp [same, new]
  · simp [same, new]

theorem of_parameter
    (sound : before.Sound)
    (done : parameter name before = .ok id after) :
    before.Grows closed after ∧ after.tree.node? id = some (.parameter (some name)) := by
  unfold parameter at done
  rw [bind_of_ok (get_apply before)] at done
  cases found : before.parameters.lookup name with
  | some existing =>
      simp only [found] at done
      cases done
      exact ⟨.refl _ closed, sound.parameters name _ found⟩
  | none =>
      simp only [found] at done
      obtain ⟨made, between, built, rest⟩ := bind_eq_ok.mp done
      obtain ⟨tree, pushed, rfl⟩ := onTree_eq_ok built
      cases pushed
      cases rest
      refine ⟨⟨.single (.added _ (.parameter _)), .push _ _, rfl, fun _ _ same => same,
        fun _ => ?_⟩, Tree.node?_push_size _ _⟩
      have evolves := Tree.Evolves.push before.tree (.parameter (some name))
      refine ⟨?_, ?_, ?_, ?_, ?_, sound.distinct⟩
      · exact sound.made.imp fun _ changes => changes.trans (.single (.added _ (.parameter _)))
      · exact fun scope member entry inScope =>
          (sound.scopes scope member entry inScope).of_evolves evolves
      · intro id other present
        rw [lookup_cons_eq_some]
        rcases node?_push_parameter.mp present with ⟨rfl, same⟩ | ⟨-, old⟩
        · exact Or.inl ⟨(Option.some.inj same).symm, rfl⟩
        · have listed := sound.named id other old
          refine Or.inr ⟨?_, listed⟩
          rintro rfl
          rw [found] at listed
          cases listed
      · intro other id listed
        rcases lookup_cons_eq_some.mp listed with ⟨rfl, rfl⟩ | ⟨-, old⟩
        · exact Tree.node?_push_size _ _
        · exact evolves.node?_of_isFinal (sound.parameters other id old) rfl
      · exact fun label id listed => evolves.node?_of_isFinal (sound.labels label id listed) rfl

theorem of_anonymous
    {label : String}
    (sound : before.Sound)
    (done : anonymous label before = .ok id after) :
    before.Grows closed after ∧ after.labels.lookup label = some id ∧
      after.tree.node? id = some (.parameter none) := by
  unfold anonymous at done
  rw [bind_of_ok (get_apply before)] at done
  cases found : before.labels.lookup label with
  | some existing =>
      simp only [found] at done
      cases done
      exact ⟨.refl _ closed, found, sound.labels label _ found⟩
  | none =>
      simp only [found] at done
      obtain ⟨made, between, built, rest⟩ := bind_eq_ok.mp done
      obtain ⟨tree, pushed, rfl⟩ := onTree_eq_ok built
      cases pushed
      cases rest
      have differs {other : String} {id : NodeId} (listed : before.labels.lookup other = some id) :
          other ≠ label := by
        rintro rfl
        rw [found] at listed
        cases listed
      have fresh {other : String} (listed : before.labels.lookup other = some ⟨before.tree.size⟩) :
          False :=
        Nat.lt_irrefl _ (Tree.lt_size_of_node? (sound.labels other _ listed))
      have changes : before.tree.Changes (before.tree.push (.parameter none)) :=
        .single (.added _ (.parameter none))
      have pushed := sound.of_changes changes fun other name present => by
        rcases node?_push_parameter.mp present with ⟨-, contrary⟩ | ⟨-, old⟩
        · cases contrary
        · exact old
      refine ⟨⟨changes, .push _ _, rfl, fun other id listed =>
        lookup_cons_eq_some.mpr (Or.inr ⟨differs listed, listed⟩), fun _ => ?_⟩,
        lookup_cons_eq_some.mpr (Or.inl ⟨rfl, rfl⟩), Tree.node?_push_size _ _⟩
      refine { pushed with labels := fun other id listed => ?_, distinct := ?_ }
      · rcases lookup_cons_eq_some.mp listed with ⟨rfl, rfl⟩ | ⟨-, old⟩
        · exact Tree.node?_push_size _ _
        · exact pushed.labels other id old
      · intro one other id oneListed otherListed
        rcases lookup_cons_eq_some.mp oneListed with ⟨rfl, rfl⟩ | ⟨-, oneOld⟩ <;>
          rcases lookup_cons_eq_some.mp otherListed with ⟨rfl, same⟩ | ⟨-, otherOld⟩
        · rfl
        · exact (fresh otherOld).elim
        · subst same
          exact (fresh oneOld).elim
        · exact sound.distinct one other id oneOld otherOld

/-! ## Fetches -/

mutual

theorem of_fetch
    {before after : Draft}
    {id : NodeId}
    (declared : Fetch)
    (done : fetch id declared before = .ok () after) :
    before.Grows closed after := by
  match declared with
  | ⟨field, direction, collection, nested⟩ =>
      obtain ⟨next, between, built, rest⟩ := bind_eq_ok.mp done
      obtain ⟨tree, made, rfl⟩ := onTree_eq_ok built
      exact (Draft.Grows.onTree (Build.of_fetch made)).trans (of_fetches nested rest)

/-- Fetches below a source leave all outlines as they are. -/
theorem of_fetches
    {before after : Draft}
    {id : NodeId}
    (declared : List Fetch)
    (done : fetches id declared before = .ok () after) :
    before.Grows closed after := by
  match declared with
  | [] =>
      cases done
      exact .refl _ closed
  | first :: others =>
      obtain ⟨⟨⟩, between, firstDone, rest⟩ := bind_eq_ok.mp done
      exact (of_fetch first firstDone).trans (of_fetches others rest)

end

end Drafting
end Document
end QueryGraph
