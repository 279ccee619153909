import QueryGraph.Proofs.Document.Scoping
import QueryGraph.Proofs.Tree.Correlations

/-!
# The names in a scope

Most steps of a draft leave all names as they are and correlate no source. While the sources of a
statement are declared, the innermost scope learns their names, each once.

The scope of an open statement knows its own sources and the ones that it has correlated so far. A
name that is looked up in the open scopes is found as the innermost statement has declared it,
whichever of them have been asked for it before.
-/

namespace QueryGraph

open Operation

namespace Document

variable {before between after : Draft} {statement source : NodeId} {name : String}

/-! ## Quiet steps -/

/-- A step that leaves all names as they are and correlates no source. -/
structure Draft.Quiet (before after : Draft) : Prop where
  scopes : after.scopes = before.scopes
  correlated : after.tree.correlated = before.tree.correlated

theorem Draft.Quiet.refl (draft : Draft) : draft.Quiet draft := ⟨rfl, rfl⟩

theorem Draft.Quiet.trans
    (earlier : before.Quiet between)
    (later : between.Quiet after) :
    before.Quiet after :=
  ⟨later.scopes.trans earlier.scopes, later.correlated.trans earlier.correlated⟩

namespace Drafting

/-- An operation of the builder that correlates no source. -/
theorem quiet_onTree
    {action : Build α}
    {value : α}
    (uncorrelating : Build.Uncorrelating action)
    (done : onTree action before = .ok value after) :
    before.Quiet after := by
  obtain ⟨tree, built, rfl⟩ := onTree_eq_ok done
  exact ⟨rfl, uncorrelating built⟩

mutual

theorem quiet_fetch
    {before after : Draft}
    {id : NodeId}
    (declared : Fetch)
    (done : fetch id declared before = .ok () after) :
    before.Quiet after := by
  match declared with
  | ⟨field, direction, collection, nested⟩ =>
      obtain ⟨next, between, built, rest⟩ := bind_eq_ok.mp done
      exact (quiet_onTree (Build.uncorrelating_fetch _ _ _) built).trans
        (quiet_fetches nested rest)

theorem quiet_fetches
    {before after : Draft}
    {id : NodeId}
    (declared : List Fetch)
    (done : fetches id declared before = .ok () after) :
    before.Quiet after := by
  match declared with
  | [] =>
      cases done
      exact .refl _
  | first :: others =>
      obtain ⟨⟨⟩, between, firstDone, rest⟩ := bind_eq_ok.mp done
      exact (quiet_fetch first firstDone).trans (quiet_fetches others rest)

end

theorem quiet_fields
    {text : String}
    {id : NodeId}
    {path : List String}
    (done : fields text id path before = .ok source after) :
    before.Quiet after := by
  induction path generalizing before id with
  | nil =>
      cases done
      exact .refl _
  | cons field rest inductionHypothesis =>
      unfold fields at done
      split at done
      · cases done
      · obtain ⟨next, between, built, last⟩ := bind_eq_ok.mp done
        exact (quiet_onTree (Build.uncorrelating_access field) built).trans
          (inductionHypothesis last)

theorem quiet_parameter (done : parameter name before = .ok source after) :
    before.Quiet after := by
  unfold parameter at done
  rw [bind_of_ok (get_apply before)] at done
  cases found : before.parameters.lookup name with
  | some existing =>
      simp only [found] at done
      cases done
      exact .refl _
  | none =>
      simp only [found] at done
      obtain ⟨made, between, built, rest⟩ := bind_eq_ok.mp done
      have quiet := quiet_onTree (Build.uncorrelating_parameter _) built
      cases rest
      exact ⟨quiet.scopes, quiet.correlated⟩

theorem quiet_anonymous
    {label : String}
    (done : anonymous label before = .ok source after) :
    before.Quiet after := by
  unfold anonymous at done
  rw [bind_of_ok (get_apply before)] at done
  cases found : before.labels.lookup label with
  | some existing =>
      simp only [found] at done
      cases done
      exact .refl _
  | none =>
      simp only [found] at done
      obtain ⟨made, between, built, rest⟩ := bind_eq_ok.mp done
      have quiet := quiet_onTree (Build.uncorrelating_parameter _) built
      cases rest
      exact ⟨quiet.scopes, quiet.correlated⟩

end Drafting

/-! ## Tables and what names mean in them -/

namespace Table

variable {names more : List (Option String)} {ids others : List NodeId}

theorem ofSources_append (same : names.length = ids.length) :
    ofSources (names ++ more) (ids ++ others) = ofSources names ids ++ ofSources more others := by
  unfold ofSources
  rw [List.zip_append same, List.filterMap_append]

theorem mem_of_mem_ofSources
    {entry : String × NodeId}
    (member : entry ∈ ofSources names ids) :
    entry.2 ∈ ids := by
  obtain ⟨pair, inZip, found⟩ := List.mem_filterMap.mp member
  obtain ⟨name, -, rfl⟩ := Option.map_eq_some_iff.mp found
  exact (List.of_mem_zip inZip).2

/-- Where each source has an entry in the list of names, the table has exactly these names. -/
theorem names_ofSources (same : names.length = ids.length) :
    (ofSources names ids).names = names.filterMap id := by
  induction names generalizing ids with
  | nil => rfl
  | cons given rest inductionHypothesis =>
      obtain ⟨first, later, rfl⟩ := List.exists_cons_of_length_eq_add_one same.symm
      have inner := inductionHypothesis (Nat.succ.inj same)
      cases given with
      | none => exact inner
      | some name => exact congrArg (name :: ·) inner

end Table

section Meanings

variable {tables : List Table} {table own correlated : Table} {id : NodeId}

theorem Table.names_append : Table.names (own ++ correlated) = own.names ++ correlated.names :=
  List.map_append

theorem Table.mem_names (member : (name, id) ∈ table) : name ∈ table.names :=
  List.mem_map.mpr ⟨_, member, rfl⟩

theorem meaning?_of_found (found : table.lookup name = some id) :
    meaning? (table :: tables) name = some id := by
  rw [meaning?, List.findSome?_cons, found]

theorem meaning?_of_absent (absent : table.lookup name = none) :
    meaning? (table :: tables) name = meaning? tables name := by
  rw [meaning?, List.findSome?_cons, absent, meaning?]

theorem mem_names_of_meaning? (found : meaning? tables name = some id) :
    name ∈ tables.flatMap Table.names := by
  obtain ⟨table, member, listed⟩ := List.exists_of_findSome?_eq_some found
  exact List.mem_flatMap.mpr ⟨table, member, Table.mem_names (Entries.mem_of_lookup listed)⟩

end Meanings

/-! ## Declaring names -/

/-- Sources were declared in the innermost scope, those under a name that have one. -/
structure Draft.Names
    (before : Draft)
    (names : List (Option String))
    (ids : List NodeId)
    (after : Draft) : Prop where
  correlated : after.tree.correlated = before.tree.correlated
  length : names.length = ids.length
  scopes : ∀ scope outer, before.scopes = scope :: outer -> (Table.names scope.names).Nodup ->
    ∃ entries, after.scopes = { scope with names := entries } :: outer ∧
      entries.Perm (Table.ofSources names ids ++ scope.names) ∧ (Table.names entries).Nodup

namespace Draft.Names

variable {names more : List (Option String)} {ids others : List NodeId}

theorem of_quiet (quiet : before.Quiet after) : before.Names [] [] after where
  correlated := quiet.correlated
  length := rfl
  scopes scope outer found distinct :=
    ⟨scope.names, by rw [quiet.scopes, found], .refl _, distinct⟩

theorem append
    (earlier : before.Names names ids between)
    (later : between.Names more others after) :
    before.Names (names ++ more) (ids ++ others) after where
  correlated := later.correlated.trans earlier.correlated
  length := by rw [List.length_append, List.length_append, earlier.length, later.length]
  scopes scope outer found distinct := by
    obtain ⟨entries, foundBetween, same, distinctBetween⟩ :=
      earlier.scopes scope outer found distinct
    obtain ⟨last, foundLast, sameLast, distinctLast⟩ :=
      later.scopes _ outer foundBetween distinctBetween
    refine ⟨last, foundLast, ?_, distinctLast⟩
    rw [Table.ofSources_append earlier.length, List.append_assoc]
    exact (sameLast.trans (same.append_left _)).trans (List.perm_append_comm_assoc _ _ _)

/-- It does not matter which of the sources are listed first. -/
theorem swap
    {last : List (Option String)}
    {lastIds : List NodeId}
    (same : names.length = ids.length)
    (alsoSame : more.length = others.length)
    (named : before.Names (names ++ (more ++ last)) (ids ++ (others ++ lastIds)) after) :
    before.Names (more ++ (names ++ last)) (others ++ (ids ++ lastIds)) after where
  correlated := named.correlated
  length := by
    have length := named.length
    simp only [List.length_append] at length ⊢
    omega
  scopes scope outer found distinct := by
    obtain ⟨entries, foundLater, permuted, distinctLater⟩ :=
      named.scopes scope outer found distinct
    refine ⟨entries, foundLater, permuted.trans (List.Perm.append_right _ ?_), distinctLater⟩
    rw [Table.ofSources_append same, Table.ofSources_append alsoSame,
      Table.ofSources_append alsoSame, Table.ofSources_append same]
    exact List.perm_append_comm_assoc _ _ _

end Draft.Names

namespace Drafting

theorem names_declare
    {given : Option String}
    (done : declare given source before = .ok () after) :
    before.Names [given] [source] after := by
  cases given with
  | none =>
      cases done
      refine ⟨rfl, rfl, fun scope outer found distinct => ?_⟩
      exact ⟨scope.names, by rw [found], .refl _, distinct⟩
  | some name =>
      change (if before.scopes.head?.any fun scope => (scope.find? name).isSome then
        throw (.duplicateAlias name) else bind name source : Drafting Unit) before = _ at done
      split at done
      · cases done
      · rename_i fresh
        cases done
        refine ⟨?_, rfl, fun scope outer found distinct => ?_⟩
        · obtain ⟨tree, scopes, parameters, labels⟩ := before
          cases scopes <;> rfl
        · rw [found, List.head?_cons, Option.any_some, Option.isSome_iff_ne_none, not_not] at fresh
          refine ⟨(name, source) :: scope.names, by simp only [found]; rfl, .refl _, ?_⟩
          exact List.nodup_cons.mpr ⟨Entries.lookup_eq_none_iff.mp fresh, distinct⟩

theorem names_introduce
    {aliasHint given : Option String}
    (done : introduce source aliasHint given before = .ok () after) :
    before.Names [given.or aliasHint] [source] after := by
  unfold introduce at done
  cases aliasHint with
  | none => exact names_declare done
  | some text =>
      obtain ⟨⟨⟩, between, suggested, declared⟩ := bind_eq_ok.mp done
      exact (Draft.Names.of_quiet
        (quiet_onTree (Build.uncorrelating_setAlias text) suggested)).append
          (names_declare declared)

/-- Joins are declared under their names, each before those below it. -/
theorem names_joins
    {before after : Draft}
    {parent : NodeId}
    {declared : List NodeId}
    (list : List (JoinOf ε))
    (done : joins parent list before = .ok declared after) :
    before.Names (namesOfJoins list) declared after := by
  match list with
  | [] =>
      rw [joins] at done
      cases done
      rw [namesOfJoins]
      exact .of_quiet (.refl _)
  | ⟨field, aliasHint, name, direction, mode, on, nested, fetched⟩ :: rest =>
      rw [joins] at done
      obtain ⟨join, _, built, afterJoin⟩ := bind_eq_ok.mp done
      obtain ⟨⟨⟩, introduced, introducing, afterName⟩ := bind_eq_ok.mp afterJoin
      obtain ⟨below, nestedDraft, nestedDone, afterNested⟩ := bind_eq_ok.mp afterName
      obtain ⟨⟨⟩, fetchedDraft, fetching, afterFetches⟩ := bind_eq_ok.mp afterNested
      obtain ⟨later, _, restDone, last⟩ := bind_eq_ok.mp afterFetches
      cases last
      have made := Draft.Names.of_quiet (quiet_onTree (Build.uncorrelating_join _ _ _) built)
      have fetches := Draft.Names.of_quiet (quiet_fetches fetched fetching)
      have others := fetches.append (names_joins rest restDone)
      rw [namesOfJoins]
      exact (made.append (names_introduce introducing)).append
        ((names_joins nested nestedDone).append others)

/-- The names of a statement are those of its roots and of all joins below them. -/
theorem names_sources
    {list : List (RootOf ε)}
    {declared : List NodeId}
    (inside : before.Inside statement)
    (isStatement : before.tree.HasStatement statement)
    (done : sources statement list before = .ok declared after) :
    ∃ ids, ids.length = list.length ∧
      (∀ body, before.tree.outline? statement = some (.statement body) ->
        after.tree.outline? statement =
          some (.statement { body with roots := body.roots ++ ids })) ∧
      before.Names (namesOfRoots list ++ namesBelow list) (ids ++ declared) after := by
  induction list generalizing before declared with
  | nil =>
      cases done
      exact ⟨[], rfl, fun body found => by simpa using found, .of_quiet (.refl _)⟩
  | cons first rest inductionHypothesis =>
      obtain ⟨root, below, later, made, introduced, joined, fetched, declaring, restDone, rfl⟩ :=
        sources_cons_eq_ok done
      obtain ⟨ids, length, listed, others⟩ := inductionHypothesis (declaring.inside inside)
        (declaring.isStatement inside isStatement) restDone
      refine ⟨root :: ids, congrArg Nat.succ length, fun body found => ?_, ?_⟩
      · simpa using listed _ (declaring.listed inside found)
      · -- A root comes before the joins below it, and these come before the other roots.
        have making := quiet_onTree (Build.uncorrelating_root _) declaring.making
        have fetching := quiet_fetches first.fetches declaring.fetching
        have inner := names_joins first.joins declaring.joining
        have sameLength : (namesOfRoots rest).length = ids.length := by
          rw [namesOfRoots, List.length_map, length]
        have rootsFirst := (inner.append
          ((Draft.Names.of_quiet fetching).append others)).swap inner.length sameLength
        exact (Draft.Names.of_quiet making).append
          ((names_introduce declaring.introducing).append rootsFirst)

end Drafting
end Document

namespace Tree

open Document

variable {tree before after : Tree} {tables : List Table} {name : String} {id source : NodeId}

theorem Means.of_evolves
    (means : before.Means tables name source)
    (evolves : before.Evolves after) :
    after.Means tables name source :=
  means.imp fun _ each => ⟨each.1, evolves.resolveCorrelation each.2⟩

theorem ReadsFrom.of_evolves
    {names : List String}
    (reads : before.ReadsFrom source names id)
    (evolves : before.Evolves after) :
    after.ReadsFrom source names id := by
  induction reads with
  | source => exact .source
  | field found _ inductionHypothesis =>
      exact .field (evolves.node?_of_isFinal found rfl) inductionHypothesis

/-- A new source that correlates another one stands for what that one stands for. -/
theorem Evolves.resolveCorrelation_correlated
    {body : Source}
    {declared : NodeId}
    (evolves : before.Evolves after)
    (grown : before.size < after.size)
    (found : after.node? id = some (.source body))
    (correlates : body.kind = .correlated source)
    (resolved : before.resolveCorrelation source = .ok declared) :
    after.resolveCorrelation id = .ok declared := by
  unfold Tree.resolveCorrelation Tree.resolveFrom
  rw [source_eq_ok.mpr found]
  simp only [correlates]
  exact evolves.resolveFrom grown resolved

end Tree

namespace Document

variable {tree later : Tree} {scope : Scope} {tables outer : List Table} {own correlated : Table}
  {name : String} {id : NodeId}

/-! ## Scopes -/

/-- A scope that knows the sources of its statement, and other names for what they mean around
it. -/
structure Scope.Knows
    (scope : Scope)
    (tree : Tree)
    (outer : List Table)
    (own correlated : Table) : Prop where
  made : scope.statement.index < tree.size
  entries : scope.names.Perm (own ++ correlated)
  distinct : (Table.names (own ++ correlated)).Nodup
  originals : ∀ entry ∈ own, tree.resolveCorrelation entry.2 = .ok entry.2
  means : ∀ entry ∈ correlated, tree.Means outer entry.1 entry.2
  correlates : correlated.map Prod.snd = tree.correlated scope.statement

namespace Scope.Knows

theorem find?_eq_some_iff (knows : scope.Knows tree outer own correlated) :
    scope.find? name = some id ↔ (name, id) ∈ own ++ correlated := by
  have distinct : (scope.names.map Prod.fst).Nodup :=
    (knows.entries.map Prod.fst).nodup_iff.mpr knows.distinct
  rw [← knows.entries.mem_iff]
  exact Entries.lookup_eq_some_iff distinct

/-- A name that the scope does not know is in neither of its tables. -/
theorem not_mem_of_find?
    (knows : scope.Knows tree outer own correlated)
    (missing : scope.find? name = none) :
    name ∉ Table.names (own ++ correlated) := by
  intro listed
  obtain ⟨⟨_, id⟩, member, rfl⟩ := List.mem_map.mp listed
  rw [knows.find?_eq_some_iff.mpr member] at missing
  cases missing

/-- What a scope knows by a name is what the name means there. -/
theorem means_of_find?
    (knows : scope.Knows tree outer own correlated)
    (found : scope.find? name = some id) :
    tree.Means (own :: outer) name id := by
  have distinct := knows.distinct
  rw [Table.names_append, List.nodup_append] at distinct
  obtain ⟨ownDistinct, -, apart⟩ := distinct
  rcases List.mem_append.mp (knows.find?_eq_some_iff.mp found) with declared | visible
  · exact ⟨id, meaning?_of_found (Entries.lookup_of_mem ownDistinct declared), knows.originals _ declared⟩
  · have absent : own.lookup name = none := by
      refine Entries.lookup_eq_none_iff.mpr fun listed => ?_
      exact apart name listed name (Table.mem_names visible) rfl
    obtain ⟨declared, means, resolved⟩ := knows.means _ visible
    exact ⟨declared, (meaning?_of_absent absent).trans means, resolved⟩

theorem of_evolves
    (knows : scope.Knows tree outer own correlated)
    (evolves : tree.Evolves later)
    (same : later.correlated scope.statement = tree.correlated scope.statement) :
    scope.Knows later outer own correlated where
  made := Nat.lt_of_lt_of_le knows.made evolves.size_le
  entries := knows.entries
  distinct := knows.distinct
  originals entry member := evolves.resolveCorrelation (knows.originals entry member)
  means entry member := (knows.means entry member).of_evolves evolves
  correlates := knows.correlates.trans same.symm

/-- A scope learns the name of a source that it correlates. -/
theorem insert
    (knows : scope.Knows tree outer own correlated)
    (evolves : tree.Evolves later)
    (fresh : scope.find? name = none)
    (means : later.Means outer name id)
    (correlates : later.correlated scope.statement = tree.correlated scope.statement ++ [id]) :
    (scope.insert name id).Knows later outer own (correlated ++ [(name, id)]) where
  made := Nat.lt_of_lt_of_le knows.made evolves.size_le
  entries := by
    rw [← List.append_assoc]
    exact (knows.entries.cons _).trans (List.perm_append_singleton _ _).symm
  distinct := by
    rw [← List.append_assoc, Table.names_append, List.nodup_append]
    refine ⟨knows.distinct, List.pairwise_singleton _ _, ?_⟩
    rintro other listed _ new rfl
    obtain rfl : other = name := List.mem_singleton.mp new
    exact knows.not_mem_of_find? fresh listed
  originals entry member := evolves.resolveCorrelation (knows.originals entry member)
  means := List.forall_mem_append.mpr ⟨fun entry member =>
    (knows.means entry member).of_evolves evolves, List.forall_mem_singleton.mpr means⟩
  correlates := by
    rw [List.map_append, knows.correlates]
    exact correlates.symm

end Scope.Knows
end Document

namespace Tree

open Document

variable {tree before after : Tree} {scopes : List Scope} {tables : List Table} {name : String}
  {id : NodeId}

/-- Scopes of statements inside one another, each of which knows what it should. -/
inductive Knows (tree : Tree) : List Scope -> List Table -> Prop
  | nil : Knows tree [] []
  | cons
      {scope : Scope}
      {scopes : List Scope}
      {own correlated : Table}
      {tables : List Table}
      (knows : scope.Knows tree tables own correlated)
      (older : ∀ other ∈ scopes, other.statement.index < scope.statement.index)
      (outer : Knows tree scopes tables) :
      Knows tree (scope :: scopes) (own :: tables)

namespace Knows

theorem of_evolves
    (knows : before.Knows scopes tables)
    (evolves : before.Evolves after)
    (same : ∀ scope ∈ scopes, after.correlated scope.statement =
      before.correlated scope.statement) :
    after.Knows scopes tables := by
  induction knows with
  | nil => exact .nil
  | cons knows older _ inductionHypothesis =>
      obtain ⟨here, others⟩ := List.forall_mem_cons.mp same
      exact .cons (knows.of_evolves evolves here) older (inductionHypothesis others)

/-- What the scopes know by a name is what the name means. -/
theorem means
    (knows : tree.Knows scopes tables)
    (found : (scopes.findSome? fun scope => scope.find? name) = some id) :
    tree.Means tables name id := by
  induction knows with
  | nil => cases found
  | @cons scope scopes own correlated tables knows older _ inductionHypothesis =>
      rw [List.findSome?_cons] at found
      cases here : scope.find? name with
      | some source =>
          rw [here] at found
          cases found
          exact knows.means_of_find? here
      | none =>
          rw [here] at found
          have fresh := knows.not_mem_of_find? here
          rw [Table.names_append, List.mem_append, not_or] at fresh
          obtain ⟨declared, means, resolved⟩ := inductionHypothesis found
          have absent := Entries.lookup_eq_none_iff.mpr fresh.1
          exact ⟨declared, (meaning?_of_absent absent).trans means, resolved⟩

/-- A name that none of the scopes knows is in none of the tables. -/
theorem not_mem_of_findSome?
    (knows : tree.Knows scopes tables)
    (missing : (scopes.findSome? fun scope => scope.find? name) = none) :
    name ∉ tables.flatMap Table.names := by
  induction knows with
  | nil => exact List.not_mem_nil
  | @cons scope scopes own correlated tables knows older _ inductionHypothesis =>
      rw [List.findSome?_cons] at missing
      cases here : scope.find? name with
      | some source =>
          rw [here] at missing
          cases missing
      | none =>
          rw [here] at missing
          have fresh := knows.not_mem_of_find? here
          rw [Table.names_append, List.mem_append, not_or] at fresh
          rw [List.flatMap_cons, List.mem_append, not_or]
          exact ⟨fresh.1, inductionHypothesis missing⟩

end Knows
end Tree
end QueryGraph
