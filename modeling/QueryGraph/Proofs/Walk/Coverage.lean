import QueryGraph.Proofs.Graph.Declarations
import QueryGraph.Proofs.Tree.Placement
import QueryGraph.Proofs.Walk.Quiet

/-!
# A walk holds what it declares

Whenever a source is declared, the walk holds the source and every fetch below it.
-/

namespace QueryGraph
namespace Walk

/-- Every declared source is held, and so is every fetch below it. -/
def Covered (walk : Walk) : Prop :=
  ∀ id ∈ walk.sources.declared.keys, ∃ fetches, id ∈ walk.guard.held ∧
    walk.tree.fetchTrees id = .ok fetches ∧ ∀ fetch ∈ fetches, fetch.ids ⊆ walk.guard.held

/-- A step after which every declared source is held if that was so before. -/
structure Covers (before after : Walk) : Prop where
  tallies : before.Tallies after
  covered : before.tree.Placed -> before.Covered -> after.Covered

/-- What is held and read of one declared source stays so. -/
theorem Tallies.fetches_held
    {before after : Walk}
    {id : NodeId}
    {fetches : List FetchTree}
    (tallies : before.Tallies after)
    (isHeld : id ∈ before.guard.held)
    (found : before.tree.fetchTrees id = .ok fetches)
    (fetchesHeld : ∀ fetch ∈ fetches, fetch.ids ⊆ before.guard.held) :
    id ∈ after.guard.held ∧ after.tree.fetchTrees id = .ok fetches ∧
      ∀ fetch ∈ fetches, fetch.ids ⊆ after.guard.held := by
  have held := tallies.held.subset
  refine ⟨held isHeld, ?_, fun fetch member => List.Subset.trans (fetchesHeld fetch member) held⟩
  exact (Tree.Matches.of_nodes tallies.nodes before.guard.held).fetchTrees isHeld fetchesHeld found

namespace Covers

theorem trans
    {first second third : Walk}
    (earlier : first.Covers second)
    (later : second.Covers third) :
    first.Covers third where
  tallies := earlier.tallies.trans later.tallies
  covered placed covered :=
    later.covered (placed.of_nodes earlier.tallies.nodes) (earlier.covered placed covered)

theorem of_quiet
    {before after : Walk}
    (quiet : before.Quiet after) :
    before.Covers after where
  tallies := quiet.toTallies
  covered := by
    intro _ covered id member
    rw [quiet.sources] at member
    obtain ⟨fetches, isHeld, found, fetchesHeld⟩ := covered id member
    exact ⟨fetches, quiet.fetches_held isHeld found fetchesHeld⟩

end Covers
end Walk

namespace Walking

theorem covers_lawful : (succeeding Walk.Covers).Lawful :=
  succeeding_lawful (fun walk => .of_quiet (.refl walk)) Walk.Covers.trans

variable {schema : Schema} {before after : Walk}

theorem covers_visitRoot
    {isFirst : Bool}
    {root : NodeId}
    {vertices : List VertexId}
    (done : visitRoot schema isFirst root before = .ok vertices after) :
    before.Covers after := by
  obtain ⟨source, held, found, holds, last⟩ := visitRoot_eq_ok.mp done
  have quiet := quiet_of_holdAll holds
  rcases last with ⟨-, -, rfl⟩ | ⟨-, vertex, sources, built, -, rfl⟩
  · exact .of_quiet quiet
  refine (Walk.Covers.of_quiet quiet).trans ⟨.of_eq rfl rfl, ?_⟩
  intro _ covered id member
  rcases (Graphing.mem_keys_buildRoot built id).mp member with old | ⟨inner, contains, same⟩
  · exact covered id old
  · have read : inner.ReadFrom held.tree := by
      have foundHeld : held.tree.sourceTree root = .ok source :=
        (Tree.Matches.of_nodes quiet.nodes source.ids).sourceTree (List.Subset.refl _) found
      exact contains.readFrom (SourceTree.readFrom_of_ofNode foundHeld)
    have innerHeld : inner.ids ⊆ held.guard.held :=
      List.Subset.trans contains.ids_subset (subset_held_of_holdAll holds)
    obtain ⟨node, body, fetches, joins⟩ := inner
    obtain ⟨-, fetchesFound, -, -⟩ := SourceTree.readFrom_mk read
    change node = id at same
    rw [same] at fetchesFound innerHeld
    refine ⟨fetches, innerHeld List.mem_cons_self, fetchesFound, ?_⟩
    intro fetch fetchMember other otherMember
    exact innerHeld (List.mem_cons_of_mem id (List.mem_append_left _
      (List.mem_flatMap.mpr ⟨fetch, fetchMember, otherMember⟩)))

/-- A correlated source has no fetches, so nothing below it has to be held. -/
theorem covers_visitCorrelation
    {statement correlated : NodeId}
    (done : visitCorrelation statement correlated before = .ok () after) :
    before.Covers after := by
  obtain ⟨held, outer, vertex, holds, resolved, declared, rfl⟩ := visitCorrelation_eq_ok.mp done
  refine (Walk.Covers.of_quiet (quiet_of_hold holds)).trans ⟨.of_eq rfl rfl, ?_⟩
  intro placed covered id member
  rcases DeclarationMap.mem_keys_insert.mp member with rfl | old
  · have isHeld : id ∈ held.guard.held := by
      obtain ⟨tree, -, rfl⟩ := hold_eq_ok.mp holds
      exact List.mem_cons_self
    unfold Tree.resolveCorrelation Tree.resolveFrom at resolved
    cases sourceFound : held.tree.source id with
    | error error =>
        rw [sourceFound] at resolved
        cases resolved
    | ok body =>
        have present := Tree.source_eq_ok.mp sourceFound
        rw [sourceFound] at resolved
        have onlyItself : outer = id -> _ := fun same => by
          rw [same] at declared
          exact covered id (DeclarationMap.mem_keys_of_find? declared)
        cases kind : body.kind with
        | root recordType =>
            simp only [kind] at resolved
            cases resolved
            exact onlyItself rfl
        | join parent field direction mode on =>
            simp only [kind] at resolved
            cases resolved
            exact onlyItself rfl
        | correlated next =>
            have isCorrelated : body.isCorrelated = true := by simp [Source.isCorrelated, kind]
            obtain ⟨-, empty, -⟩ := placed id _ present
            refine ⟨[], isHeld, ?_, by simp⟩
            refine Tree.fetchTrees_eq_ok.mpr ⟨body, present, ?_⟩
            rw [(empty isCorrelated).2]
            rfl
  · exact covered id old

theorem covers_preserved (schema : Schema) : Preserved schema Walk.Covers where
  quiet := .of_quiet
  trans := Walk.Covers.trans
  sources := by
    intro id statement before after _ done
    obtain ⟨-, roots, built, correlated, rootsDone, correlationsDone, rfl⟩ :=
      visitSources_eq_ok.mp done
    have rootsCover : before.Covers built :=
      (Obeys.mapM covers_lawful fun root _ => obeys_succeeding covers_visitRoot).of_ok rootsDone
    have correlationsCover : built.Covers correlated :=
      (Obeys.forM covers_lawful fun source _ =>
        obeys_succeeding covers_visitCorrelation).of_ok correlationsDone
    apply (rootsCover.trans correlationsCover).trans
    split
    · exact ⟨.of_eq rfl rfl, fun _ covered => covered⟩
    · exact .of_quiet (.refl _)

/-- When a walk ends, every declared source is held with the fetches below it. -/
theorem covered_of_walkTree
    {tree : Tree}
    {owner : Owner}
    (placed : tree.Placed)
    (done : walkTree schema { tree := tree, guard := { owner := owner } } = .ok () after) :
    after.Covered :=
  ((covers_preserved schema).of_walkTree done).covered placed fun id member => by cases member

end Walking
end QueryGraph
