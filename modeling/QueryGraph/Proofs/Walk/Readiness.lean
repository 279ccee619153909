import QueryGraph.Proofs.Graph.Refusal
import QueryGraph.Proofs.Tree.Visits
import QueryGraph.Proofs.Walk.Scope

/-!
# What may stop a walk

A walk is stopped by what is there at one of its visits. When it enters the sources of a statement,
that is a declaration that the schema or an earlier one contradicts, a hold of somebody else, or a
correlation out of the statements that are open.
-/

namespace QueryGraph

open Operation

/-- What may stop a walk through a tree on behalf of an owner. -/
inductive Tree.Permits
    (tree : Tree)
    (owner : Owner) : CompileError -> Prop
  | noRoots (statement : NodeId) : Permits tree owner (.noRoots statement)
  | declaration {error : CompileError} (fails : error.FailsDeclaration) : Permits tree owner error
  /-- Somebody else holds a node. -/
  | frozen
      {node : NodeId}
      {other : Owner}
      (held : tree.frozenBy node = some other)
      (differs : other ≠ owner) :
      Permits tree owner (.freeze (.frozenByOther node other))
  /-- A statement is visited while it is open. -/
  | recursion
      {id : NodeId}
      {enclosing : List NodeId}
      (visited : Visit.mk id enclosing ∈ tree.visits)
      (isOpen : id ∈ enclosing) :
      Permits tree owner (.recursiveSubquery id)
  /-- A path is visited while the statement of its source is not open. -/
  | path
      {id : NodeId}
      {enclosing : List NodeId}
      {below : List NodeId}
      {sourceId : NodeId}
      {source : Source}
      (statement : NodeId)
      (visited : Visit.mk id enclosing ∈ tree.visits)
      (found : tree.pathChain id = .ok ⟨below, sourceId, source⟩)
      (outside : source.statement ∉ enclosing) :
      Permits tree owner (.tree (.rootOutsideStatement sourceId statement))
  /-- A statement is visited while that of a source which it correlates is not open. -/
  | correlation
      {id correlated outer : NodeId}
      {enclosing : List NodeId}
      {body : Statement}
      {source : Source}
      (visited : Visit.mk id enclosing ∈ tree.visits)
      (found : tree.node? id = some (.statement body))
      (listed : correlated ∈ body.correlations)
      (resolved : tree.resolveCorrelation correlated = .ok outer)
      (isSource : tree.node? outer = some (.source source))
      (outside : source.statement ∉ enclosing) :
      Permits tree owner (.tree (.rootOutsideStatement outer id))
  /-- Two placeholders of one name are visited. -/
  | conflict
      {first second : NodeId}
      {name : String}
      {firstEnclosing secondEnclosing : List NodeId}
      (firstVisited : Visit.mk first firstEnclosing ∈ tree.visits)
      (secondVisited : Visit.mk second secondEnclosing ∈ tree.visits)
      (firstFound : tree.node? first = some (.parameter (some name)))
      (secondFound : tree.node? second = some (.parameter (some name)))
      (differ : first ≠ second) :
      Permits tree owner (.namedParameterConflict name first second)
  /-- A positional placeholder is visited twice. -/
  | reuse
      {id : NodeId}
      (twice : 2 ≤ (tree.anonymous tree.visits).count id) :
      Permits tree owner (.anonymousParameterReused id)

/-- A tree that is walked, with a schema and on behalf of an owner. -/
structure Itinerary where
  schema : Schema
  tree : Tree
  owner : Owner

/-! ## Entering the sources of a statement -/

/-- A step that enters no statement and meets neither a placeholder nor a constant. -/
structure Walk.Passive (before after : Walk) : Prop where
  statementRoots : after.statementRoots = before.statementRoots
  parameters : after.parameters = before.parameters
  literals : after.literals = before.literals

namespace Walk.Passive

theorem refl (walk : Walk) : walk.Passive walk := ⟨rfl, rfl, rfl⟩

theorem trans
    {first second third : Walk}
    (earlier : first.Passive second)
    (later : second.Passive third) :
    first.Passive third :=
  ⟨later.statementRoots.trans earlier.statementRoots, later.parameters.trans earlier.parameters,
    later.literals.trans earlier.literals⟩

end Walk.Passive

namespace Walking

variable {schema : Schema} {before after : Walk}

theorem passive_lawful : (succeeding Walk.Passive).Lawful :=
  succeeding_lawful Walk.Passive.refl Walk.Passive.trans

theorem passive_of_hold
    {id : NodeId}
    (done : hold id before = .ok () after) :
    before.Passive after := by
  obtain ⟨tree, -, rfl⟩ := hold_eq_ok.mp done
  exact ⟨rfl, rfl, rfl⟩

theorem passive_of_visitRoot
    {isFirst : Bool}
    {root : NodeId}
    {vertices : List VertexId}
    (done : visitRoot schema isFirst root before = .ok vertices after) :
    before.Passive after := by
  obtain ⟨source, held, -, holds, last⟩ := visitRoot_eq_ok.mp done
  have passive : before.Passive held :=
    (Obeys.forM passive_lawful fun _ _ => obeys_succeeding passive_of_hold).of_ok holds
  rcases last with ⟨-, -, rfl⟩ | ⟨-, vertex, sources, -, -, rfl⟩
  · exact passive
  · exact passive.trans ⟨rfl, rfl, rfl⟩

theorem passive_of_visitCorrelation
    {statement correlated : NodeId}
    (done : visitCorrelation statement correlated before = .ok () after) :
    before.Passive after := by
  obtain ⟨held, outer, vertex, holds, -, -, rfl⟩ := visitCorrelation_eq_ok.mp done
  exact (passive_of_hold holds).trans ⟨rfl, rfl, rfl⟩

/-- Entering the sources of a statement meets neither a placeholder nor a constant, and lists the
statement unless it was entered before. -/
theorem entered_of_visitSources
    {id : NodeId}
    {statement : Statement}
    (done : visitSources schema id statement before = .ok () after) :
    after.parameters = before.parameters ∧ after.literals = before.literals ∧
      after.entered = if id ∈ before.entered then before.entered else before.entered ++ [id] := by
  obtain ⟨-, roots, built, correlated, rootsDone, correlationsDone, rfl⟩ :=
    visitSources_eq_ok.mp done
  have passiveRoots : before.Passive built :=
    (Obeys.mapM passive_lawful fun _ _ => obeys_succeeding passive_of_visitRoot).of_ok rootsDone
  have passiveCorrelations : built.Passive correlated :=
    (Obeys.forM passive_lawful fun _ _ =>
      obeys_succeeding passive_of_visitCorrelation).of_ok correlationsDone
  have passive := passiveRoots.trans passiveCorrelations
  have entered : correlated.entered = before.entered := by
    unfold Walk.entered
    rw [passive.statementRoots]
  cases first : isFirstVisit before id with
  | false =>
      rw [if_neg Bool.false_ne_true, if_pos (isFirstVisit_eq_false.mp first)]
      exact ⟨passive.parameters, passive.literals, entered⟩
  | true =>
      have new : id ∉ before.entered := by
        intro member
        rw [isFirstVisit_eq_false.mpr member] at first
        cases first
      rw [if_pos rfl, if_neg new, ← entered]
      exact ⟨passive.parameters, passive.literals, by simp [Walk.entered]⟩

end Walking

namespace Itinerary

variable {plan : Itinerary} {around : List NodeId} {before after walk : Walk} {id : NodeId}

/-- A walk that has only taken holds on the tree, and has declared the sources of the statements
around it. -/
structure Ready
    (plan : Itinerary)
    (around : List NodeId)
    (walk : Walk) : Prop where
  declares : walk.Declares plan.schema plan.tree
  owner : walk.guard.owner = plan.owner
  raised : walk.Raised plan.tree.hold
  opened : around ⊆ walk.entered

theorem Ready.step
    (ready : plan.Ready around before)
    (adds : before.Adds plan.schema plan.tree after)
    (tallies : before.Tallies after) :
    plan.Ready around after where
  declares := adds.declares ready.declares
  owner := tallies.owner.trans ready.owner
  raised := tallies.raised ready.raised
  opened := List.Subset.trans ready.opened adds.entered

/-- A hold on a node is refused only if somebody else had one to begin with. -/
theorem Ready.ends_hold
    (ready : plan.Ready around walk)
    (present : id.index < plan.tree.size) :
    Ends (fun _ after => plan.Ready around after) (plan.tree.Permits plan.owner)
      (Walking.hold id walk) := by
  refine Ends.of_done ?_ fun _ after done =>
    ready.step (.of_quiet (Walking.quiet_of_hold done)) (Walking.tallies_of_hold done)
  cases result : Walking.hold id walk with
  | ok value after => trivial
  | error error after =>
      have sameSize : walk.tree.size = plan.tree.size := by
        unfold Tree.size
        rw [ready.declares.nodes]
      have contained : walk.tree.contains id = true := Tree.contains_iff.mpr (by omega)
      by_cases admits : (walk.tree.hold id).Admits walk.guard.owner
      · rw [Walking.hold_eq_ok.mpr ⟨_, Tree.freeze_of_admits contained admits, rfl⟩] at result
        cases result
      · cases held : (walk.tree.hold id).owner with
        | none => exact absurd (Or.inl held) admits
        | some other =>
            have differs : other ≠ walk.guard.owner := by
              rintro rfl
              exact admits (Or.inr held)
            rw [Walking.hold_of_refused (Tree.freeze_of_other contained held differs)] at result
            cases result
            rw [ready.owner] at differs
            refine .frozen ?_ differs
            -- The walk has no hold on a node that somebody else holds.
            have unheld : id ∉ walk.guard.held := by
              intro member
              have own := Tree.Raised.frozenBy_of_mem ready.raised member
              unfold Tree.frozenBy at own
              rw [held, ready.owner] at own
              exact differs (Option.some.inj own)
            have same := ready.raised.hold_eq id
            rw [List.count_eq_zero.mpr unheld, Hold.raised_zero] at same
            unfold Tree.frozenBy
            rw [← same, held]

theorem Ready.ends_holdAll
    {ids : List NodeId}
    (ready : plan.Ready around walk)
    (present : ∀ id ∈ ids, id.index < plan.tree.size) :
    Ends (fun _ after => plan.Ready around after) (plan.tree.Permits plan.owner)
      (Walking.holdAll ids walk) :=
  Ends.forM (plan.Ready around) (fun id member _ ready => ready.ends_hold (present id member)) ready

theorem Ready.ends_visitRoot
    {isFirst : Bool}
    {statement root : NodeId}
    (orderly : plan.tree.Orderly)
    (ready : plan.Ready around walk)
    (isRoot : plan.tree.HasRoot statement root) :
    Ends (fun _ after => plan.Ready around after) (plan.tree.Permits plan.owner)
      (Walking.visitRoot plan.schema isFirst root walk) := by
  refine Ends.of_done ?_ fun vertices after done =>
    ready.step (Walking.adds_visitRoot orderly.placed done)
      ((Walking.Tally.visitRoot plan.schema isFirst root).of_ok done)
  obtain ⟨body, recordType, found, kind, here⟩ := isRoot
  obtain ⟨source, read⟩ := orderly.exists_sourceTree found
  have readHere : walk.tree.sourceTree root = .ok source :=
    (Tree.Matches.of_nodes ready.declares.nodes source.ids).sourceTree (List.Subset.refl _) read
  have readFrom := SourceTree.readFrom_of_ofNode read
  have sameId : source.id = root := SourceTree.id_of_ofNode read
  unfold Walking.visitRoot
  refine Ends.bind_ok (Walking.read_eq_ok.mpr ⟨readHere, rfl⟩) ?_
  refine Ends.bind ((ready.ends_holdAll fun id member =>
    SourceTree.lt_size_of_mem_ids orderly.listed readFrom member).imp ?_ fun _ same => same)
  intro _ held _
  cases isFirst with
  | false => trivial
  | true =>
      have isRoot : plan.tree.HasRoot statement source.id := by
        rw [sameId]
        exact ⟨body, recordType, found, kind, here⟩
      have built : Ends (fun _ _ => True) CompileError.FailsDeclaration
          (Graphing.buildRoot plan.schema source held.sources) :=
        Graphing.refusal_buildRoot orderly.placed readFrom isRoot
      refine Ends.bind ?_
      unfold Walking.onSources
      cases result : Graphing.buildRoot plan.schema source held.sources with
      | ok vertex sources => trivial
      | error error sources => exact .declaration (built.of_error result)

/-- A correlation is refused only while the statement of the source that it finally stands for is
not open. -/
theorem Ready.ends_visitCorrelation
    {body : Statement}
    {correlated : NodeId}
    (orderly : plan.tree.Orderly)
    (ready : plan.Ready around walk)
    (visited : Visit.mk id around ∈ plan.tree.visits)
    (found : plan.tree.node? id = some (.statement body))
    (listed : correlated ∈ body.correlations) :
    Ends (fun _ after => plan.Ready around after) (plan.tree.Permits plan.owner)
      (Walking.visitCorrelation id correlated walk) := by
  refine Ends.of_done ?_ fun _ after done => ready.step (Walking.adds_visitCorrelation done)
    ((Walking.Tally.visitCorrelation id correlated).of_ok done)
  obtain ⟨source, _, isSource, -, -⟩ :=
    (orderly.referring id _ found).correlations correlated listed
  unfold Walking.visitCorrelation
  refine Ends.bind ((ready.ends_hold (Tree.lt_size_of_node? isSource)).imp ?_ fun _ same => same)
  intro _ held ready
  obtain ⟨outer, outerBody, resolved, outerFound, -⟩ :=
    orderly.placed.exists_resolveCorrelation isSource
  have resolvedHere : held.tree.resolveCorrelation correlated = .ok outer :=
    (Tree.Matches.of_nodes ready.declares.nodes []).evolves.resolveCorrelation resolved
  refine Ends.bind_ok (Walking.read_eq_ok.mpr ⟨resolvedHere, rfl⟩) ?_
  refine Ends.bind_ok (get_apply held) ?_
  cases declared : held.sources.declared.find? outer with
  | some vertex => trivial
  | none =>
      refine .correlation visited found listed resolved outerFound fun isOpen => ?_
      obtain ⟨vertex, contrary⟩ := DeclarationMap.find?_of_mem_keys
        (ready.declares.complete outerFound (ready.opened isOpen))
      rw [declared] at contrary
      cases contrary

/-- The sources of a visited statement are entered, or there is a reason at the visit. -/
theorem Ready.ends_visitSources
    {body : Statement}
    (orderly : plan.tree.Orderly)
    (ready : plan.Ready around walk)
    (visited : Visit.mk id around ∈ plan.tree.visits)
    (found : plan.tree.node? id = some (.statement body)) :
    Ends (fun _ after => plan.Ready around after) (plan.tree.Permits plan.owner)
      (Walking.visitSources plan.schema id body walk) := by
  have foundHere : walk.tree.statement id = .ok body := by
    rw [Tree.statement_eq_ok, Tree.node?_eq_of_nodes ready.declares.nodes, found]
  refine Ends.of_done ?_ fun _ after done =>
    ready.step (Walking.adds_visitSources orderly.placed foundHere done)
      ((Walking.Tally.visitSources plan.schema id body).of_ok done)
  unfold Walking.visitSources
  refine Ends.bind_ok (get_apply walk) ?_
  by_cases empty : (body.roots.isEmpty && body.correlations.isEmpty) = true
  · simp only [if_pos empty]
    exact .noRoots id
  simp only [if_neg empty]
  have refers : plan.tree.StatementRefers id body := orderly.referring id _ found
  refine Ends.bind ((Ends.mapM (plan.Ready around) (fun root isRoot state ready =>
    ready.ends_visitRoot orderly (refers.roots root isRoot)) ready).imp ?_ fun _ same => same)
  intro roots built ready
  refine Ends.bind ((Ends.forM (plan.Ready around) (fun correlated listed state ready =>
    ready.ends_visitCorrelation orderly visited found listed) ready).imp ?_ fun _ same => same)
  intro _ last _
  split <;> trivial

end Itinerary
end QueryGraph
