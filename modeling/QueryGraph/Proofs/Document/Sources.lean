import QueryGraph.Proofs.Document.Draft

/-!
# Sources of a document

The sources of a statement are declared before their conditions. The numbers of the joins come in
the order in which their conditions are visited, each join before those below it.
-/

namespace QueryGraph

open Operation

namespace Tree

variable {tree before after : Tree} {id : NodeId} {closed : NodeId -> Prop}
  {ids declared below later : List NodeId}

/-! ## Conditions -/

/-- The condition of a join. -/
def condition? (tree : Tree) (id : NodeId) : Option NodeId :=
  match tree.outline? id with
  | some (.source body) => body.condition?
  | _ => none

/-- The conditions of several joins. -/
def conditionsAt (tree : Tree) (ids : List NodeId) : List NodeId :=
  ids.flatMap fun id => (tree.condition? id).toList

theorem condition?_of_outline?
    {body : Source}
    (found : tree.outline? id = some (.source body)) :
    tree.condition? id = body.condition? := by
  unfold condition?
  rw [found]

/-- Some sources of a tree list the same joins in a later one. -/
def KeepsJoins
    (before : Tree)
    (ids : List NodeId)
    (after : Tree) : Prop :=
  ∀ id ∈ ids, ∀ body, before.outline? id = some (.source body) ->
    ∃ later : Source, after.outline? id = some (.source later) ∧ later.joins = body.joins

theorem KeepsJoins.of_keeps
    (keeps : before.Keeps closed after)
    (isClosed : ∀ id ∈ ids, closed id) :
    before.KeepsJoins ids after :=
  fun id member body found => ⟨body, keeps id _ (isClosed id member) found, rfl⟩

/-! ## Joins and roots -/

/-- Joins of a document with their nodes, and the numbers of all joins at or below them, each
before those below it. -/
inductive Joined (tree : Tree) :
    List (Document.JoinOf ε) -> List NodeId -> List NodeId -> Prop
  | nil : Joined tree [] [] []
  | cons
      {join : Document.JoinOf ε}
      {joins : List (Document.JoinOf ε)}
      {id : NodeId}
      {ids below later : List NodeId}
      {body : Source}
      (found : tree.outline? id = some (.source body))
      (nested : Joined tree join.joins body.joins below)
      (others : Joined tree joins ids later) :
      Joined tree (join :: joins) (id :: ids) (id :: below ++ later)

theorem Joined.of_keepsJoins
    {joins : List (Document.JoinOf ε)}
    (joined : before.Joined joins ids declared)
    (keeps : before.KeepsJoins declared after) :
    after.Joined joins ids declared := by
  induction joined with
  | nil => exact .nil
  | cons found nested others nestedHypothesis othersHypothesis =>
      obtain ⟨later, foundLater, same⟩ := keeps _ List.mem_cons_self _ found
      refine .cons foundLater ?_ ?_
      · rw [same]
        exact nestedHypothesis fun other member =>
          keeps other (List.mem_cons_of_mem _ (List.mem_append_left _ member))
      · exact othersHypothesis fun other member =>
          keeps other (List.mem_cons_of_mem _ (List.mem_append_right _ member))

/-- Root sources of a document with their nodes, and the numbers of all joins below them. -/
inductive Rooted (tree : Tree) :
    List (Document.RootOf ε) -> List NodeId -> List NodeId -> Prop
  | nil : Rooted tree [] [] []
  | cons
      {root : Document.RootOf ε}
      {roots : List (Document.RootOf ε)}
      {id : NodeId}
      {ids below later : List NodeId}
      {body : Source}
      (found : tree.outline? id = some (.source body))
      (unconditional : body.condition? = none)
      (nested : tree.Joined root.joins body.joins below)
      (others : Rooted tree roots ids later) :
      Rooted tree (root :: roots) (id :: ids) (below ++ later)

theorem Rooted.of_keeps
    {roots : List (Document.RootOf ε)}
    (rooted : before.Rooted roots ids declared)
    (keeps : before.Keeps closed after)
    (isClosed : ∀ id ∈ ids, closed id)
    (keepsJoins : before.KeepsJoins declared after) :
    after.Rooted roots ids declared := by
  induction rooted with
  | nil => exact .nil
  | cons found unconditional nested others inductionHypothesis =>
      refine .cons (keeps _ _ (isClosed _ List.mem_cons_self) found) unconditional ?_ ?_
      · exact nested.of_keepsJoins fun other member =>
          keepsJoins other (List.mem_append_left _ member)
      · exact inductionHypothesis
          (fun other member => isClosed other (List.mem_cons_of_mem _ member))
          fun other member => keepsJoins other (List.mem_append_right _ member)

/-! ## Reading the conditions -/

theorem conditions_joinConditions (joins : List SourceTree) :
    SourceTree.conditions.joinConditions joins = joins.flatMap SourceTree.conditions := by
  induction joins with
  | nil => rfl
  | cons join joins inductionHypothesis =>
      rw [SourceTree.conditions.joinConditions, inductionHypothesis, List.flatMap_cons]

/-- Joins that can be read have the conditions of all joins at or below them. -/
theorem Joined.conditions
    {joins : List (Document.JoinOf ε)}
    {fuel : Nat}
    {sources : List SourceTree}
    (joined : tree.Joined joins ids declared)
    (read : ids.mapM (SourceTree.ofNode tree fuel) = .ok sources) :
    sources.flatMap SourceTree.conditions = tree.conditionsAt declared := by
  induction joined generalizing fuel sources with
  | nil =>
      cases read
      rfl
  | cons found nested others nestedHypothesis othersHypothesis =>
      obtain ⟨source, rest, firstRead, othersRead, rfl⟩ :=
        List.forall₂_cons_left_iff.mp (mapM_eq_ok.mp read)
      cases fuel with
      | zero => cases firstRead
      | succ fuel =>
          obtain ⟨full, fetches, inner, present, -, innerRead, rfl⟩ :=
            SourceTree.ofNode_succ_eq_ok.mp firstRead
          rw [outline?_of_node? present] at found
          obtain rfl := Node.source.inj (Option.some.inj found)
          have here := condition?_of_outline? (outline?_of_node? present)
          unfold conditionsAt at nestedHypothesis othersHypothesis ⊢
          rw [List.flatMap_cons, List.cons_append, List.flatMap_cons, List.flatMap_append,
            SourceTree.conditions, conditions_joinConditions, nestedHypothesis innerRead,
            othersHypothesis (mapM_eq_ok.mpr othersRead), here, List.append_assoc]
          rfl

/-- The conditions below roots are those of the joins below them. -/
theorem Rooted.conditions
    {roots : List (Document.RootOf ε)}
    (rooted : tree.Rooted roots ids declared)
    (orderly : tree.Orderly) :
    ids.flatMap tree.conditionsOf = tree.conditionsAt declared := by
  induction rooted with
  | nil => rfl
  | cons found unconditional nested others inductionHypothesis =>
      obtain ⟨full, present, rfl⟩ := exists_of_outline?_source found
      obtain ⟨source, read⟩ := orderly.exists_sourceTree present
      obtain ⟨again, fetches, inner, presentAgain, -, innerRead, rfl⟩ :=
        SourceTree.ofNode_succ_eq_ok.mp read
      rw [present] at presentAgain
      cases presentAgain
      replace unconditional : full.condition? = none := unconditional
      have below := nested.conditions innerRead
      unfold conditionsAt at below inductionHypothesis ⊢
      rw [List.flatMap_cons, List.flatMap_append, inductionHypothesis, conditionsOf, read, ← below]
      simp only [SourceTree.conditions, conditions_joinConditions, unconditional,
        Option.toList_none, List.nil_append]

end Tree

namespace Document

variable {ε : Type} {draft before between after : Draft} {statement : NodeId} {first next : Nat}
  {declared more : List NodeId}

/-! ## Joins without conditions -/

/-- Joins that were declared before a number, and have no condition yet. -/
structure Draft.Blank
    (draft : Draft)
    (first : Nat)
    (declared : List NodeId) : Prop where
  older : ∀ id ∈ declared, id.index < first
  nodup : declared.Nodup
  unconditional : ∀ id ∈ declared, ∃ body, draft.tree.outline? id = some (.source body) ∧
    body.condition? = none

namespace Draft.Blank

theorem nil : draft.Blank first [] :=
  ⟨List.forall_mem_nil _, List.nodup_nil, List.forall_mem_nil _⟩

theorem single
    {id : NodeId}
    {body : Source}
    (found : draft.tree.outline? id = some (.source body))
    (unconditional : body.condition? = none) :
    draft.Blank (id.index + 1) [id] :=
  ⟨List.forall_mem_singleton.mpr (Nat.lt_succ_self _), List.pairwise_singleton _ id,
    List.forall_mem_singleton.mpr ⟨body, found, unconditional⟩⟩

theorem of_grows
    {closed : NodeId -> Prop}
    (blank : before.Blank first declared)
    (grows : before.Grows closed after)
    (isClosed : ∀ id ∈ declared, closed id) :
    after.Blank first declared := by
  refine ⟨blank.older, blank.nodup, fun id member => ?_⟩
  obtain ⟨body, found, unconditional⟩ := blank.unconditional id member
  exact ⟨body, grows.keeps id _ (isClosed id member) found, unconditional⟩

/-- Older joins and newer ones. -/
theorem append
    (earlier : draft.Blank first declared)
    (later : draft.Blank next more)
    (le : first ≤ next)
    (newer : ∀ id ∈ more, first ≤ id.index) :
    draft.Blank next (declared ++ more) where
  older := List.forall_mem_append.mpr
    ⟨fun id member => Nat.lt_of_lt_of_le (earlier.older id member) le, later.older⟩
  nodup := by
    refine List.nodup_append.mpr ⟨earlier.nodup, later.nodup, ?_⟩
    rintro id member _ memberLater rfl
    exact Nat.lt_irrefl _ (Nat.lt_of_lt_of_le (earlier.older id member) (newer id memberLater))
  unconditional := List.forall_mem_append.mpr ⟨earlier.unconditional, later.unconditional⟩

theorem left (blank : draft.Blank first (declared ++ more)) : draft.Blank first declared where
  older id member := blank.older id (List.mem_append_left _ member)
  nodup := (List.nodup_append.mp blank.nodup).1
  unconditional id member := blank.unconditional id (List.mem_append_left _ member)

theorem right (blank : draft.Blank first (declared ++ more)) : draft.Blank first more where
  older id member := blank.older id (List.mem_append_right _ member)
  nodup := (List.nodup_append.mp blank.nodup).2.1
  unconditional id member := blank.unconditional id (List.mem_append_right _ member)

theorem apart (blank : draft.Blank first (declared ++ more)) :
    ∀ id ∈ declared, ∀ other ∈ more, id ≠ other :=
  (List.nodup_append.mp blank.nodup).2.2

end Draft.Blank

namespace Drafting

/-! ## Declaring joins -/

/-- Joins that were declared below a source, without conditions. -/
structure DeclaresJoins
    (before : Draft)
    (parent : NodeId)
    (list : List (JoinOf ε))
    (declared : List NodeId)
    (after : Draft) : Prop where
  grows : before.Grows (fun other => other ≠ parent) after
  joined : ∃ ids, after.tree.Joined list ids declared ∧
    ∀ body, before.tree.outline? parent = some (.source body) ->
      after.tree.outline? parent = some (.source { body with joins := body.joins ++ ids })
  newer : ∀ id ∈ declared, before.tree.size ≤ id.index
  blank : after.Blank after.tree.size declared

/-- A join, the joins below it and its younger siblings were declared one after the other. -/
theorem DeclaresJoins.cons
    {made introduced nestedDraft fetchedDraft : Draft}
    {parent join : NodeId}
    {first : JoinOf ε}
    {rest : List (JoinOf ε)}
    {below later : List NodeId}
    {field : String}
    {direction : JoinDirection}
    {mode : JoinMode}
    (isSource : before.tree.HasSource statement parent)
    (makes : before.Grows (fun other => other ≠ parent) made)
    (isNext : join = ⟨before.tree.size⟩)
    (listed : ∀ body, before.tree.outline? parent = some (.source body) ->
      made.tree.outline? parent = some (.source { body with joins := body.joins ++ [join] }) ∧
      made.tree.outline? join = some (.source {
        statement := body.statement
        kind := .join parent field direction mode none }))
    (introduces : made.Grows (fun _ => True) introduced)
    (nested : DeclaresJoins introduced join first.joins below nestedDraft)
    (fetches : nestedDraft.Grows (fun _ => True) fetchedDraft)
    (others : DeclaresJoins fetchedDraft parent rest later after) :
    DeclaresJoins before parent (first :: rest) (join :: below ++ later) after := by
  obtain ⟨full, present, -⟩ := isSource
  have parentFound := Tree.outline?_of_node? present
  have parentOld : parent.index < before.tree.size := Tree.lt_size_of_node? present
  obtain ⟨parentMade, joinMade⟩ := listed _ parentFound
  have joinNew : join.index = before.tree.size := by rw [isNext]
  have joinInside : join.index < made.tree.size := Tree.lt_size_of_outline? joinMade
  have sizes : made.tree.size ≤ introduced.tree.size := introduces.evolves.size_le
  have nestedSizes : introduced.tree.size ≤ nestedDraft.tree.size := nested.grows.evolves.size_le
  have fetchedSizes : nestedDraft.tree.size ≤ fetchedDraft.tree.size := fetches.evolves.size_le
  have lastSizes : fetchedDraft.tree.size ≤ after.tree.size := others.grows.evolves.size_le
  have apart : join ≠ parent := by
    rintro rfl
    omega
  have onward : nestedDraft.Grows (fun other => other ≠ parent) after :=
    (fetches.mono fun _ _ _ => trivial).trans others.grows
  obtain ⟨inner, innerJoined, joinListed⟩ := nested.joined
  obtain ⟨siblings, siblingsJoined, parentListed⟩ := others.joined
  have joinFound := joinListed _ (introduces.keeps join _ trivial joinMade)
  have joinLast := onward.keeps join _ apart joinFound
  have belowNewer : ∀ id ∈ below, join.index + 1 ≤ id.index := by
    intro id member
    have := nested.newer id member
    omega
  have belowApart : ∀ id ∈ below, id ≠ parent := by
    rintro id member rfl
    have := belowNewer id member
    omega
  refine {
    grows := ?_
    joined := ⟨join :: siblings, ?_, ?_⟩
    newer := ?_
    blank := ?_ }
  · -- What was there before is older than the join, so it is kept while joins are added below it.
    refine ((makes.andThen introduces fun _ _ _ => trivial).andThen nested.grows ?_).andThen
      onward fun _ _ isClosed => isClosed
    rintro id older - rfl
    omega
  · refine .cons joinLast ?_ siblingsJoined
    exact innerJoined.of_keepsJoins (.of_keeps onward.keeps belowApart)
  · intro body found
    have parentIntroduced := introduces.keeps parent _ trivial (listed body found).1
    have parentNested := nested.grows.keeps parent _ apart.symm parentIntroduced
    have parentLast := parentListed _ (fetches.keeps parent _ trivial parentNested)
    simpa using parentLast
  · refine List.forall_mem_append.mpr ⟨List.forall_mem_cons.mpr
      ⟨Nat.le_of_eq joinNew.symm, fun id member => ?_⟩, fun id member => ?_⟩
    · have := belowNewer id member
      omega
    · have := others.newer id member
      omega
  · refine (((Draft.Blank.single joinLast rfl).append (nested.blank.of_grows onward belowApart)
      (by omega) belowNewer).append others.blank (by omega) fun id member => ?_)
    have := others.newer id member
    omega

theorem of_joins
    {before after : Draft}
    {parent : NodeId}
    {declared : List NodeId}
    (list : List (JoinOf ε))
    (inside : before.Inside statement)
    (isSource : before.tree.HasSource statement parent)
    (done : joins parent list before = .ok declared after) :
    DeclaresJoins before parent list declared after := by
  match list with
  | [] =>
      rw [joins] at done
      cases done
      exact {
        grows := .refl _ _
        joined := ⟨[], .nil, fun body found => by simpa using found⟩
        newer := List.forall_mem_nil _
        blank := .nil }
  | ⟨field, aliasHint, name, direction, mode, on, nested, fetched⟩ :: rest =>
      rw [joins] at done
      obtain ⟨join, _, built, afterJoin⟩ := bind_eq_ok.mp done
      obtain ⟨tree, made, rfl⟩ := onTree_eq_ok built
      obtain ⟨⟨⟩, introduced, introducing, afterName⟩ := bind_eq_ok.mp afterJoin
      obtain ⟨below, nestedDraft, nestedDone, afterNested⟩ := bind_eq_ok.mp afterName
      obtain ⟨⟨⟩, fetchedDraft, fetching, afterFetches⟩ := bind_eq_ok.mp afterNested
      obtain ⟨later, _, restDone, last⟩ := bind_eq_ok.mp afterFetches
      cases last
      obtain ⟨isNext, grown, listed⟩ := Build.of_join made
      have makes : before.Grows (fun other => other ≠ parent) { before with tree := tree } :=
        .onTree grown
      have joinIsSource : tree.HasSource statement join := by
        obtain ⟨full, present, here⟩ := isSource
        obtain ⟨-, found⟩ := listed _ (Tree.outline?_of_node? present)
        obtain ⟨body, joinPresent, same⟩ := Tree.exists_of_outline?_source found
        exact ⟨body, joinPresent, (congrArg Source.statement same).trans here⟩
      have introduces : ({ before with tree := tree } : Draft).Grows (fun _ => True) introduced :=
        of_introduce (makes.inside inside) joinIsSource introducing
      have insideIntroduced := introduces.inside (makes.inside inside)
      have nestedDeclares := of_joins nested insideIntroduced
        (joinIsSource.of_evolves introduces.evolves) nestedDone
      have fetches : nestedDraft.Grows (fun _ => True) fetchedDraft := of_fetches fetched fetching
      have evolves := ((makes.evolves.trans introduces.evolves).trans
        nestedDeclares.grows.evolves).trans fetches.evolves
      have others := of_joins rest
        (fetches.inside (nestedDeclares.grows.inside insideIntroduced))
        (isSource.of_evolves evolves) restDone
      exact .cons isSource makes isNext listed introduces nestedDeclares fetches others

/-! ## Declaring roots -/

/-- Roots that were declared in a statement, with joins that have no conditions. -/
structure DeclaresRoots
    (before : Draft)
    (statement : NodeId)
    (list : List (RootOf ε))
    (declared : List NodeId)
    (after : Draft) : Prop where
  grows : before.Grows (fun other => other ≠ statement) after
  rooted : ∃ ids, after.tree.Rooted list ids declared ∧
    (∀ id ∈ ids, before.tree.size ≤ id.index ∧ id ∉ declared) ∧
    ∀ body, before.tree.outline? statement = some (.statement body) ->
      after.tree.outline? statement = some (.statement { body with roots := body.roots ++ ids })
  newer : ∀ id ∈ declared, before.tree.size ≤ id.index
  blank : after.Blank after.tree.size declared

/-- A root, the joins below it and the younger roots were declared one after the other. -/
theorem DeclaresRoots.cons
    {made introduced joined fetched : Draft}
    {root : NodeId}
    {first : RootOf ε}
    {rest : List (RootOf ε)}
    {below later : List NodeId}
    {recordType : String}
    (isStatement : before.tree.HasStatement statement)
    (makes : before.Grows (fun other => other ≠ statement) made)
    (isNext : root = ⟨before.tree.size⟩)
    (listed : ∀ body, before.tree.outline? statement = some (.statement body) ->
      made.tree.outline? statement =
        some (.statement { body with roots := body.roots ++ [root] }))
    (rootMade : made.tree.outline? root =
      some (.source { statement := statement, kind := .root recordType }))
    (introduces : made.Grows (fun _ => True) introduced)
    (joins : DeclaresJoins introduced root first.joins below joined)
    (fetches : joined.Grows (fun _ => True) fetched)
    (others : DeclaresRoots fetched statement rest later after) :
    DeclaresRoots before statement (first :: rest) (below ++ later) after := by
  obtain ⟨full, present⟩ := isStatement
  have statementOld : statement.index < before.tree.size := Tree.lt_size_of_node? present
  have rootNew : root.index = before.tree.size := by rw [isNext]
  have rootInside : root.index < made.tree.size := Tree.lt_size_of_outline? rootMade
  have sizes : made.tree.size ≤ introduced.tree.size := introduces.evolves.size_le
  have joinedSizes : introduced.tree.size ≤ joined.tree.size := joins.grows.evolves.size_le
  have fetchedSizes : joined.tree.size ≤ fetched.tree.size := fetches.evolves.size_le
  have lastSizes : fetched.tree.size ≤ after.tree.size := others.grows.evolves.size_le
  have apart : root ≠ statement := by
    rintro rfl
    omega
  have onward : joined.Grows (fun other => other ≠ statement) after :=
    (fetches.mono fun _ _ _ => trivial).trans others.grows
  obtain ⟨inner, innerJoined, rootListed⟩ := joins.joined
  obtain ⟨siblings, siblingsRooted, siblingsNewer, statementListed⟩ := others.rooted
  have rootFound := rootListed _ (introduces.keeps root _ trivial rootMade)
  have rootLast := onward.keeps root _ apart rootFound
  have belowNewer : ∀ id ∈ below, root.index < id.index := by
    intro id member
    have := joins.newer id member
    omega
  have laterNewer : ∀ id ∈ later, joined.tree.size ≤ id.index := by
    intro id member
    have := others.newer id member
    omega
  have belowApart : ∀ id ∈ below, id ≠ statement := by
    rintro id member rfl
    have := belowNewer id member
    omega
  refine {
    grows := ?_
    rooted := ⟨root :: siblings, ?_, List.forall_mem_cons.mpr ⟨⟨?_, ?_⟩, ?_⟩, ?_⟩
    newer := ?_
    blank := ?_ }
  · refine ((makes.andThen introduces fun _ _ _ => trivial).andThen joins.grows ?_).andThen
      onward fun _ _ isClosed => isClosed
    rintro id older - rfl
    omega
  · refine .cons rootLast rfl ?_ siblingsRooted
    exact innerJoined.of_keepsJoins (.of_keeps onward.keeps belowApart)
  · exact Nat.le_of_eq rootNew.symm
  · intro member
    rcases List.mem_append.mp member with inBelow | inLater
    · exact Nat.lt_irrefl _ (belowNewer root inBelow)
    · have := laterNewer root inLater
      omega
  · intro id member
    obtain ⟨newer, apartLater⟩ := siblingsNewer id member
    refine ⟨by omega, fun inDeclared => ?_⟩
    rcases List.mem_append.mp inDeclared with inBelow | inLater
    · have := joins.blank.older id inBelow
      omega
    · exact apartLater inLater
  · intro body found
    have statementIntroduced := introduces.keeps statement _ trivial (listed body found)
    have statementJoined := joins.grows.keeps statement _ apart.symm statementIntroduced
    have statementLast := statementListed _ (fetches.keeps statement _ trivial statementJoined)
    simpa using statementLast
  · refine List.forall_mem_append.mpr ⟨fun id member => ?_, fun id member => ?_⟩
    · have := belowNewer id member
      omega
    · have := laterNewer id member
      omega
  · exact (joins.blank.of_grows onward belowApart).append others.blank (by omega) laterNewer

/-- A root is declared with its name, the joins and the fetches below it. -/
structure DeclaringRoot
    (before : Draft)
    (statement : NodeId)
    (first : RootOf ε)
    (root : NodeId)
    (below : List NodeId)
    (made introduced joined fetched : Draft) : Prop where
  making : onTree (Build.root statement first.recordType) before = .ok root made
  introducing : introduce root first.aliasHint first.name made = .ok () introduced
  joining : joins root first.joins introduced = .ok below joined
  fetching : fetches root first.fetches joined = .ok () fetched

theorem sources_cons_eq_ok
    {first : RootOf ε}
    {rest : List (RootOf ε)}
    (done : sources statement (first :: rest) before = .ok declared after) :
    ∃ root below later made introduced joined fetched,
      DeclaringRoot before statement first root below made introduced joined fetched ∧
        sources statement rest fetched = .ok later after ∧ declared = below ++ later := by
  obtain ⟨root, made, making, afterRoot⟩ := bind_eq_ok.mp done
  obtain ⟨⟨⟩, introduced, introducing, afterName⟩ := bind_eq_ok.mp afterRoot
  obtain ⟨below, joined, joining, afterJoins⟩ := bind_eq_ok.mp afterName
  obtain ⟨⟨⟩, fetched, fetching, afterFetches⟩ := bind_eq_ok.mp afterJoins
  obtain ⟨later, _, restDone, last⟩ := bind_eq_ok.mp afterFetches
  cases last
  exact ⟨root, below, later, made, introduced, joined, fetched,
    ⟨making, introducing, joining, fetching⟩, restDone, rfl⟩

namespace DeclaringRoot

variable {first : RootOf ε} {root : NodeId} {below : List NodeId}
  {made introduced joined fetched : Draft}

theorem of_root
    (declaring : DeclaringRoot before statement first root below made introduced joined fetched) :
    root = ⟨before.tree.size⟩ ∧ before.Grows (fun other => other ≠ statement) made ∧
      (∀ body, before.tree.outline? statement = some (.statement body) ->
        made.tree.outline? statement =
          some (.statement { body with roots := body.roots ++ [root] })) ∧
      made.tree.outline? root =
        some (.source { statement := statement, kind := .root first.recordType }) := by
  obtain ⟨tree, made, rfl⟩ := onTree_eq_ok declaring.making
  obtain ⟨isNext, amends, rootMade⟩ := Build.of_root made
  exact ⟨isNext, .onTree amends.grows, amends.amended, rootMade⟩

theorem isSource
    (declaring : DeclaringRoot before statement first root below made introduced joined fetched) :
    made.tree.HasSource statement root := by
  obtain ⟨-, -, -, rootMade⟩ := declaring.of_root
  obtain ⟨body, present, same⟩ := Tree.exists_of_outline?_source rootMade
  exact ⟨body, present, congrArg Source.statement same⟩

theorem introduces
    (declaring : DeclaringRoot before statement first root below made introduced joined fetched)
    (inside : before.Inside statement) :
    made.Grows (fun _ => True) introduced := by
  obtain ⟨-, makes, -⟩ := declaring.of_root
  exact of_introduce (makes.inside inside) declaring.isSource declaring.introducing

theorem declaresJoins
    (declaring : DeclaringRoot before statement first root below made introduced joined fetched)
    (inside : before.Inside statement) :
    DeclaresJoins introduced root first.joins below joined := by
  obtain ⟨-, makes, -⟩ := declaring.of_root
  have introduces := declaring.introduces inside
  exact of_joins first.joins (introduces.inside (makes.inside inside))
    (declaring.isSource.of_evolves introduces.evolves) declaring.joining

theorem inside
    (declaring : DeclaringRoot before statement first root below made introduced joined fetched)
    (inside : before.Inside statement) :
    fetched.Inside statement := by
  obtain ⟨-, makes, -⟩ := declaring.of_root
  have fetches : joined.Grows (fun _ => True) fetched := of_fetches _ declaring.fetching
  exact fetches.inside ((declaring.declaresJoins inside).grows.inside
    ((declaring.introduces inside).inside (makes.inside inside)))

theorem isStatement
    (declaring : DeclaringRoot before statement first root below made introduced joined fetched)
    (inside : before.Inside statement)
    (isStatement : before.tree.HasStatement statement) :
    fetched.tree.HasStatement statement := by
  obtain ⟨-, makes, -⟩ := declaring.of_root
  have fetches : joined.Grows (fun _ => True) fetched := of_fetches _ declaring.fetching
  exact isStatement.of_evolves (((makes.evolves.trans (declaring.introduces inside).evolves).trans
    (declaring.declaresJoins inside).grows.evolves).trans fetches.evolves)

/-- The statement lists the root, and nothing else of it has changed. -/
theorem listed
    {body : QueryGraph.Statement}
    (declaring : DeclaringRoot before statement first root below made introduced joined fetched)
    (inside : before.Inside statement)
    (found : before.tree.outline? statement = some (.statement body)) :
    fetched.tree.outline? statement =
      some (.statement { body with roots := body.roots ++ [root] }) := by
  obtain ⟨isNext, -, listed, -⟩ := declaring.of_root
  have apart : statement ≠ root := by
    have older := Tree.lt_size_of_outline? found
    rintro rfl
    rw [isNext] at older
    exact Nat.lt_irrefl _ older
  have fetches : joined.Grows (fun _ => True) fetched := of_fetches _ declaring.fetching
  have statementIntroduced := (declaring.introduces inside).keeps statement _ trivial
    (listed body found)
  exact fetches.keeps statement _ trivial
    ((declaring.declaresJoins inside).grows.keeps statement _ apart statementIntroduced)

end DeclaringRoot

theorem of_sources
    {before after : Draft}
    {declared : List NodeId}
    (list : List (RootOf ε))
    (inside : before.Inside statement)
    (isStatement : before.tree.HasStatement statement)
    (done : sources statement list before = .ok declared after) :
    DeclaresRoots before statement list declared after := by
  induction list generalizing before declared with
  | nil =>
      cases done
      exact {
        grows := .refl _ _
        rooted := ⟨[], .nil, List.forall_mem_nil _, fun body found => by simpa using found⟩
        newer := List.forall_mem_nil _
        blank := .nil }
  | cons first rest inductionHypothesis =>
      obtain ⟨root, below, later, made, introduced, joined, fetched, declaring, restDone, rfl⟩ :=
        sources_cons_eq_ok done
      obtain ⟨isNext, makes, listed, rootMade⟩ := declaring.of_root
      exact .cons isStatement makes isNext listed rootMade (declaring.introduces inside)
        (declaring.declaresJoins inside) (of_fetches _ declaring.fetching)
        (inductionHypothesis (declaring.inside inside)
          (declaring.isStatement inside isStatement) restDone)

end Drafting
end Document
end QueryGraph
