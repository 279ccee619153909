import Mathlib
import QueryGraph.Proofs.Compile.History

/-!
# Shared edges

Declared joins of a result share an edge exactly when they hang off one vertex over one relation
and neither asks for an edge of its own. Sources above may be shared as well, so whether two
joins meet is decided from the roots downwards, whatever is declared in between.
-/

namespace QueryGraph
namespace Tree

/-- What a source finally stands for stands for no other source. -/
theorem original_of_resolveFrom
    {tree : Tree}
    {fuel : Nat}
    {id outer : NodeId}
    (resolved : tree.resolveFrom fuel id = .ok outer) :
    ∃ body, tree.node? outer = some (.source body) ∧ body.isCorrelated = false := by
  induction fuel generalizing id with
  | zero => cases resolved
  | succ fuel inductionHypothesis =>
      unfold resolveFrom at resolved
      cases found : tree.source id with
      | error error =>
          rw [found] at resolved
          cases resolved
      | ok body =>
          rw [found] at resolved
          cases kind : body.kind with
          | correlated next =>
              simp only [kind] at resolved
              exact inductionHypothesis resolved
          | _ =>
              simp only [kind] at resolved
              cases resolved
              exact ⟨body, source_eq_ok.mp found, by simp [Source.isCorrelated, kind]⟩

/-- The vertex of a declared join is no root and hangs off that of the source above. Two joins
have one vertex exactly when the sources above them do, they name one relation and neither asks
for an edge of its own. A correlated source has the vertex of the root or join that it finally
stands for. -/
theorem compiled_joins_share_iff
    {tree held : Tree}
    {schema : Schema}
    {config : CompilerConfig}
    {owner : Owner}
    {compiled : CompiledGraph}
    (reachable : tree.Reachable)
    (done : tree.compile schema config owner = (.ok compiled, held)) :
    (∀ source declared, compiled.Joins tree source declared ->
      ∃ id parent vertex, compiled.sources.find? source = some id ∧
        compiled.sources.find? declared.parent = some parent ∧
        compiled.graph.vertex? id = some vertex ∧
        vertex.parent = some parent ∧ vertex.isRoot = false) ∧
    (∀ first firstDeclared second secondDeclared, compiled.Joins tree first firstDeclared ->
      compiled.Joins tree second secondDeclared -> first ≠ second ->
        (compiled.sources.find? first = compiled.sources.find? second ↔
          compiled.sources.find? firstDeclared.parent =
              compiled.sources.find? secondDeclared.parent ∧
            firstDeclared.field = secondDeclared.field ∧
            firstDeclared.mode.isNew = false ∧ secondDeclared.mode.isNew = false)) ∧
    ∀ source body, tree.node? source = some (.source body) -> body.isCorrelated = true ->
      body.statement ∈ compiled.statements ->
        ∃ outer original id, tree.resolveCorrelation source = .ok outer ∧
          tree.node? outer = some (.source original) ∧ original.isCorrelated = false ∧
          compiled.sources.find? outer = some id ∧ compiled.sources.find? source = some id := by
  obtain ⟨state, walked, recounts, sound, same, complete⟩ := compile_recounts reachable done
  obtain ⟨history, tells⟩ := compile_tells reachable done
  have vertexOf : ∀ {source declared}, compiled.Joins tree source declared ->
      ∃ id, state.declared.find? source = some id := by
    rintro source declared ⟨body, found, -, entered⟩
    rw [← same]
    exact complete found entered
  refine ⟨?_, ?_, ?_⟩
  · intro source declared joins
    obtain ⟨id, found⟩ := vertexOf joins
    rw [← same] at found
    have contributes : compiled.Contributes tree id (.join source declared) := ⟨joins.join?, found⟩
    obtain ⟨parent, member⟩ := tells.asks.mpr contributes
    obtain ⟨vertex, present, hangs⟩ := tells.chronicle.granted member
    exact ⟨id, parent, vertex, found, tells.above member, present, hangs,
      by simp [Vertex.isRoot, hangs]⟩
  · intro first firstDeclared second secondDeclared firstJoins secondJoins distinct
    obtain ⟨firstId, firstFound⟩ := vertexOf firstJoins
    obtain ⟨secondId, secondFound⟩ := vertexOf secondJoins
    rw [same, firstFound, secondFound, Option.some.injEq]
    exact recounts.eq_iff firstJoins.join? secondJoins.join? distinct firstFound secondFound
  · intro source body found _ entered
    obtain ⟨id, declared⟩ := complete found entered
    rw [same] at declared ⊢
    obtain ⟨_, -, described⟩ := sound.described declared
    obtain ⟨outer, -, resolved, -⟩ := described.resolveCorrelation reachable.placed
    obtain ⟨original, originalFound, isOriginal⟩ := original_of_resolveFrom resolved
    exact ⟨outer, original, id, resolved, originalFound, isOriginal,
      recounts.resolved resolved declared, declared⟩

/-- Teams with the clubs that their members are in. -/
def clubs : Schema :=
  ⟨⟨[("Employee", .ofFields "Employee" [.relation "team" "Team" .manyToOne true]),
    ("Team", .ofFields "Team" [.relation "club" "Club" .manyToOne true]),
    ("Club", .ofFields "Club" [.scalar "name"])]⟩⟩

/-- One relation joined twice, each time with a further join below it, and a subquery that
reads the last of these. -/
def clubmates : Tree :=
  (ofKind .query).performAll [
    .build (.root top "Employee"),
    .build (.join ⟨1⟩ "team" .left .optionallyMergeExisting),
    .build (.join ⟨1⟩ "team" .inner .requiredToMergeExisting),
    .build (.join ⟨2⟩ "club" .left .optionallyMergeExisting),
    .build (.join ⟨3⟩ "club" .left .optionallyMergeExisting),
    .build (.subquery top),
    .build (.correlate ⟨6⟩ ⟨5⟩),
    .build (.access ⟨7⟩ "name"),
    .build (.select ⟨6⟩ ⟨8⟩),
    .build (.select top ⟨6⟩)]

/-- The joins below the two shared ones are shared in turn. -/
theorem clubmates_joins_share_iff :
    ∃ compiled held outer,
      clubmates.compile clubs {} ⟨9⟩ = (.ok compiled, held) ∧
        compiled.sources.find? ⟨4⟩ = compiled.sources.find? ⟨5⟩ ∧
        clubmates.resolveCorrelation ⟨7⟩ = .ok outer ∧
        compiled.sources.find? ⟨7⟩ = compiled.sources.find? outer := by
  have succeeds : (match (clubmates.compile clubs {} ⟨9⟩).1 with
      | .ok compiled => decide (top ∈ compiled.statements ∧ ⟨6⟩ ∈ compiled.statements)
      | .error _ => false) = true := by
    cbv
  cases outcome : clubmates.compile clubs {} ⟨9⟩ with
  | mk result held =>
      rw [outcome] at succeeds
      cases result with
      | error error => cases succeeds
      | ok compiled =>
          obtain ⟨outermost, inner⟩ := of_decide_eq_true succeeds
          obtain ⟨-, share, correlated⟩ := compiled_joins_share_iff ⟨.query, _, rfl⟩ outcome
          have firstTeam : compiled.Joins clubmates ⟨2⟩
              ⟨⟨1⟩, "team", .left, .optionallyMergeExisting, none, none⟩ :=
            ⟨{ statement := top, kind := _, joins := [⟨4⟩] }, by cbv, rfl, outermost⟩
          have secondTeam : compiled.Joins clubmates ⟨3⟩
              ⟨⟨1⟩, "team", .inner, .requiredToMergeExisting, none, none⟩ :=
            ⟨{ statement := top, kind := _, joins := [⟨5⟩] }, by cbv, rfl, outermost⟩
          have firstClub : compiled.Joins clubmates ⟨4⟩
              ⟨⟨2⟩, "club", .left, .optionallyMergeExisting, none, none⟩ :=
            ⟨{ statement := top, kind := _ }, by cbv, rfl, outermost⟩
          have secondClub : compiled.Joins clubmates ⟨5⟩
              ⟨⟨3⟩, "club", .left, .optionallyMergeExisting, none, none⟩ :=
            ⟨{ statement := top, kind := _ }, by cbv, rfl, outermost⟩
          have teams := share _ _ _ _ firstTeam secondTeam (by decide)
          have shared := teams.mpr ⟨rfl, rfl, rfl, rfl⟩
          have below := share _ _ _ _ firstClub secondClub (by decide)
          obtain ⟨outer, _, id, resolved, -, -, original, reads⟩ :=
            correlated ⟨7⟩ { statement := ⟨6⟩, kind := .correlated ⟨5⟩ } (by cbv) rfl inner
          exact ⟨compiled, held, outer, rfl, below.mpr ⟨shared, rfl, rfl, rfl⟩, resolved,
            reads.trans original.symm⟩

end Tree
end QueryGraph
