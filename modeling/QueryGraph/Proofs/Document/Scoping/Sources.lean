import QueryGraph.Proofs.Document.Build
import QueryGraph.Proofs.Document.Scoping.Clauses

/-!
# The place of a statement

All sources of a statement are declared before anything is looked up in it. From then on the scope
of the statement knows what the statement declares, and the joins get their conditions at its place.
-/

namespace QueryGraph

open Operation

namespace Tree

open Document

variable {tree : Tree} {ids declared : List NodeId} {statement parent : NodeId}

/-! ## Declared sources -/

/-- Joins that are declared on a node stand for themselves, and so do the joins below them. -/
theorem Joined.originals
    {joins : List (Document.JoinOf ε)}
    {node : Node}
    (joined : tree.Joined joins ids declared)
    (listed : tree.Listed)
    (found : tree.node? parent = some node)
    (onParent : ids ⊆ node.declared) :
    ∀ id ∈ declared, tree.resolveCorrelation id = .ok id := by
  induction joined generalizing parent node with
  | nil => exact List.forall_mem_nil _
  | cons joinFound _ _ nestedHypothesis othersHypothesis =>
      obtain ⟨full, present, rfl⟩ := exists_of_outline?_source joinFound
      obtain ⟨here, others⟩ := List.cons_subset.mp onParent
      exact List.forall_mem_append.mpr ⟨List.forall_mem_cons.mpr
        ⟨listed.resolveCorrelation found here present,
          nestedHypothesis present (List.subset_append_right _ _)⟩,
        othersHypothesis found others⟩

/-- Roots that are declared on a statement stand for themselves, and so do all joins below them. -/
theorem Rooted.originals
    {roots : List (Document.RootOf ε)}
    {body : Statement}
    (rooted : tree.Rooted roots ids declared)
    (listed : tree.Listed)
    (found : tree.outline? statement = some (.statement body))
    (onStatement : ids ⊆ body.roots) :
    ∀ id ∈ ids ++ declared, tree.resolveCorrelation id = .ok id := by
  obtain ⟨statementBody, statementFound, rfl⟩ := exists_of_outline?_statement found
  induction rooted with
  | nil => exact List.forall_mem_nil _
  | cons rootFound _ nested _ inductionHypothesis =>
      obtain ⟨full, present, rfl⟩ := exists_of_outline?_source rootFound
      obtain ⟨here, others⟩ := List.cons_subset.mp onStatement
      obtain ⟨roots, later⟩ := List.forall_mem_append.mp (inductionHypothesis others)
      have below := nested.originals listed present (List.subset_append_right _ _)
      exact List.forall_mem_append.mpr ⟨List.forall_mem_cons.mpr
        ⟨listed.resolveCorrelation statementFound here present, roots⟩,
        List.forall_mem_append.mpr ⟨below, later⟩⟩

theorem Joined.length_eq
    {joins : List (Document.JoinOf ε)}
    (joined : tree.Joined joins ids declared) :
    (namesOfJoins joins).length = declared.length := by
  induction joined with
  | nil =>
      rw [namesOfJoins]
      rfl
  | @cons join _ _ _ _ _ _ _ _ _ nestedHypothesis othersHypothesis =>
      obtain ⟨field, aliasHint, name, direction, mode, on, nested, fetched⟩ := join
      rw [namesOfJoins, List.length_cons, List.length_append, nestedHypothesis, othersHypothesis,
        List.length_append, List.length_cons, Nat.succ_add]

/-- Each declared source has an entry in the list of names. -/
theorem Rooted.length_eq
    {roots : List (Document.RootOf ε)}
    (rooted : tree.Rooted roots ids declared) :
    (namesOfRoots roots ++ namesBelow roots).length = (ids ++ declared).length := by
  induction rooted with
  | nil => rfl
  | cons _ _ nested _ inductionHypothesis =>
      have below := nested.length_eq
      simp only [namesOfRoots, namesBelow, List.map_cons, List.flatMap_cons, List.length_append,
        List.length_cons] at inductionHypothesis ⊢
      omega

/-- A statement declares the names that its roots and the joins below them have. -/
theorem Rooted.names_declaredTable
    {roots : List (Document.RootOf ε)}
    (rooted : tree.Rooted roots ids declared) :
    (declaredTable roots ids declared).names = declaredNames roots :=
  Table.names_ofSources rooted.length_eq

end Tree

namespace Document

variable {before after : Draft} {place : Place} {statement : NodeId} {tables : List Table}
  {roots : List (RootOf Expression)} {ids declared : List NodeId}

namespace Drafting

/-! ## Actions that look nothing up -/

/-- An action that reports no unknown name. -/
def Blameless (action : Drafting α) : Prop :=
  ∀ ⦃before : Draft⦄, Ends (fun _ _ => True) (Blames []) (action before)

theorem blameless_pure (value : α) : Blameless (pure value) := fun _ => trivial

theorem blameless_onTree (action : Build α) : Blameless (onTree action) :=
  fun _ => ends_onTree fun _ _ _ => trivial

theorem Blameless.bind
    {first : Drafting α}
    {rest : α -> Drafting β}
    (firstBlameless : Blameless first)
    (restBlameless : ∀ value, Blameless (rest value)) :
    Blameless (first >>= rest) :=
  fun _ => firstBlameless.seq fun value between _ => @restBlameless value between

theorem blameless_introduce
    (source : NodeId)
    (aliasHint name : Option String) :
    Blameless (introduce source aliasHint name) := by
  have declares (given : Option String) : Blameless (declare given source) := by
    intro before
    cases given with
    | none => trivial
    | some name =>
        change Ends _ _ ((if before.scopes.head?.any fun scope => (scope.find? name).isSome then
          throw (.duplicateAlias name) else Drafting.bind name source : Drafting Unit) before)
        split
        · rintro name ⟨⟩
        · trivial
  cases aliasHint with
  | none => exact declares _
  | some text => exact (blameless_onTree _).bind fun _ => declares _

mutual

theorem blameless_fetch
    (parent : NodeId)
    (declared : Fetch) :
    Blameless (fetch parent declared) := by
  match declared with
  | ⟨field, direction, collection, nested⟩ =>
      exact (blameless_onTree _).bind fun made => blameless_fetches made nested

theorem blameless_fetches
    (parent : NodeId)
    (declared : List Fetch) :
    Blameless (fetches parent declared) := by
  match declared with
  | [] => exact blameless_pure ()
  | first :: rest =>
      exact (blameless_fetch parent first).bind fun _ => blameless_fetches parent rest

end

theorem blameless_joins
    (parent : NodeId)
    (list : List (JoinOf ε)) :
    Blameless (joins parent list) := by
  match list with
  | [] =>
      rw [joins]
      exact blameless_pure []
  | ⟨field, aliasHint, name, direction, mode, on, nested, fetched⟩ :: rest =>
      rw [joins]
      exact (blameless_onTree _).bind fun join =>
        (blameless_introduce join aliasHint name).bind fun _ =>
          (blameless_joins join nested).bind fun _ =>
            (blameless_fetches join fetched).bind fun _ =>
              (blameless_joins parent rest).bind fun _ => blameless_pure _

theorem blameless_sources
    (statement : NodeId)
    (list : List (RootOf ε)) :
    Blameless (sources statement list) := by
  induction list with
  | nil => exact blameless_pure []
  | cons root rest inductionHypothesis =>
      exact (blameless_onTree _).bind fun source =>
        (blameless_introduce source root.aliasHint root.name).bind fun _ =>
          (blameless_joins source root.joins).bind fun _ =>
            (blameless_fetches source root.fetches).bind fun _ =>
              inductionHypothesis.bind fun _ => blameless_pure _

end Drafting

/-! ## Opening a statement -/

/-- A draft in which a statement was opened that has nothing in it, inside statements with some
tables. -/
structure Draft.Opens
    (draft : Draft)
    (tables : List Table)
    (statement : NodeId) : Prop where
  sound : draft.Sound
  scopes : ∃ outer, draft.scopes = { statement := statement } :: outer ∧
    (∀ other ∈ outer, other.statement.index < statement.index) ∧ draft.tree.Knows outer tables
  found : ∃ kind parent,
    draft.tree.outline? statement = some (.statement { kind := kind, parent := parent })
  correlated : draft.tree.correlated statement = []

/-- A statement whose sources were declared, where nothing was looked up in it so far. -/
structure Draft.Sourced
    (before : Draft)
    (place : Place)
    (roots : List (RootOf Expression))
    (ids declared : List NodeId)
    (after : Draft) : Prop where
  here : after.At place
  declares : Drafting.DeclaresRoots before place.statement roots declared after
  rooted : after.tree.Rooted roots ids declared
  apart : ∀ id ∈ ids, id ∉ declared
  newer : ∀ id ∈ ids ++ declared, place.statement.index < id.index
  found : ∃ kind parent, after.tree.outline? place.statement =
    some (.statement { kind := kind, parent := parent, roots := ids })
  correlated : after.tree.correlated = before.tree.correlated

/-- When its sources were declared, the scope of a statement knows them and nothing else. -/
theorem Draft.Names.knows
    {outer : List Scope}
    {names : List (Option String)}
    (named : before.Names names ids after)
    (scopes : before.scopes = { statement := statement } :: outer)
    (older : ∀ other ∈ outer, other.statement.index < statement.index)
    (outerKnows : before.tree.Knows outer tables)
    (evolves : before.tree.Evolves after.tree)
    (inside : statement.index < before.tree.size)
    (uncorrelated : before.tree.correlated statement = [])
    (originals : ∀ id ∈ ids, after.tree.resolveCorrelation id = .ok id) :
    after.tree.Knows after.scopes (Table.ofSources names ids :: tables) := by
  obtain ⟨entries, scopesLater, permuted, distinct⟩ := named.scopes _ outer scopes List.nodup_nil
  rw [List.append_nil] at permuted
  have knows : ({ statement := statement, names := entries } : Scope).Knows after.tree tables
      (Table.ofSources names ids) [] := {
    made := Nat.lt_of_lt_of_le inside evolves.size_le
    entries := by rwa [List.append_nil]
    distinct := by
      rw [List.append_nil]
      exact (permuted.map Prod.fst).nodup_iff.mp distinct
    originals := fun entry member => originals _ (Table.mem_of_mem_ofSources member)
    means := List.forall_mem_nil _
    correlates := by
      rw [named.correlated, uncorrelated]
      rfl }
  rw [scopesLater]
  refine .cons knows older (outerKnows.of_evolves evolves fun scope _ => ?_)
  exact congrFun named.correlated scope.statement

/-- A statement is a place once its sources were declared. -/
theorem Draft.Opens.sources
    (opens : before.Opens tables statement)
    (done : Drafting.sources statement roots before = .ok declared after) :
    ∃ ids, before.Sourced ⟨statement, declaredTable roots ids declared :: tables⟩ roots ids declared
      after := by
  obtain ⟨sound, ⟨outer, scopes, older, outerKnows⟩, ⟨kind, parent, found⟩, uncorrelated⟩ := opens
  have inside : before.Inside statement := by
    unfold Draft.Inside
    rw [scopes]
    rfl
  have statementOld := Tree.lt_size_of_outline? found
  obtain ⟨full, present, -⟩ := Tree.exists_of_outline?_statement found
  have declares := Drafting.of_sources roots inside ⟨full, present⟩ done
  obtain ⟨ids, rooted, idsNew, listed⟩ := declares.rooted
  obtain ⟨again, -, listedAgain, named⟩ := Drafting.names_sources inside ⟨full, present⟩ done
  have foundLater := listed _ found
  obtain rfl : again = ids := by
    have same := (listedAgain _ found).symm.trans foundLater
    exact congrArg QueryGraph.Statement.roots (Node.statement.inj (Option.some.inj same))
  have soundLater := declares.grows.sound sound
  have originals :=
    rooted.originals soundLater.orderly.listed foundLater (List.Subset.refl again)
  have knows := named.knows scopes older outerKnows declares.grows.evolves statementOld
    uncorrelated originals
  refine ⟨again, ⟨declares.grows.inside inside, soundLater, knows⟩, declares, rooted,
    fun id member => (idsNew id member).2, fun id member => ?_, ⟨kind, parent, foundLater⟩,
    named.correlated⟩
  refine Nat.lt_of_lt_of_le statementOld ?_
  rcases List.mem_append.mp member with isRoot | isJoin
  · exact (idsNew id isRoot).1
  · exact declares.newer id isJoin

end Document
end QueryGraph
