import QueryGraph.Proofs.Walk.Ledger

/-!
# Steps that declare nothing

Only the visit of the sources of a statement adds to the join graph, the declarations
and the list of entered statements. What that visit preserves of them, a whole walk
preserves.
-/

namespace QueryGraph
namespace Walk

/-- A step that takes holds and leaves everything that was declared as it is. -/
structure Quiet (before after : Walk) : Prop extends before.Tallies after where
  sources : after.sources = before.sources
  statementRoots : after.statementRoots = before.statementRoots

namespace Quiet

theorem refl (walk : Walk) : walk.Quiet walk where
  toTallies := .refl walk
  sources := rfl
  statementRoots := rfl

theorem trans
    {first second third : Walk}
    (earlier : first.Quiet second)
    (later : second.Quiet third) :
    first.Quiet third where
  toTallies := earlier.toTallies.trans later.toTallies
  sources := later.sources.trans earlier.sources
  statementRoots := later.statementRoots.trans earlier.statementRoots

theorem of_retains
    {before after : Walk}
    (retains : before.Retains after) :
    before.Quiet after where
  toTallies := .of_retains retains
  sources := retains.sources
  statementRoots := retains.statementRoots

end Quiet
end Walk

namespace Walking

variable {before after : Walk}

theorem quiet_of_hold
    {id : NodeId}
    (done : hold id before = .ok () after) :
    before.Quiet after := by
  have tallies := tallies_of_hold done
  obtain ⟨tree, -, rfl⟩ := hold_eq_ok.mp done
  exact ⟨tallies, rfl, rfl⟩

theorem quiet_of_holdAll
    {ids : List NodeId}
    (done : holdAll ids before = .ok () after) :
    before.Quiet after := by
  unfold holdAll at done
  induction ids generalizing before with
  | nil =>
      cases done
      exact .refl after
  | cons id ids inductionHypothesis =>
      obtain ⟨between, first, rest⟩ := Operation.forM_cons_eq_ok.mp done
      exact (quiet_of_hold first).trans (inductionHypothesis rest)

/-- A held list is part of the list of holds. -/
theorem subset_held_of_holdAll
    {ids : List NodeId}
    (done : holdAll ids before = .ok () after) :
    ids ⊆ after.guard.held := by
  unfold holdAll at done
  induction ids generalizing before with
  | nil => exact List.nil_subset _
  | cons id ids inductionHypothesis =>
      obtain ⟨between, first, rest⟩ := Operation.forM_cons_eq_ok.mp done
      obtain ⟨tree, -, rfl⟩ := hold_eq_ok.mp first
      refine List.cons_subset.mpr ⟨?_, inductionHypothesis rest⟩
      exact (quiet_of_holdAll rest).held.subset List.mem_cons_self

/-- What a walk preserves, given what the visit of the sources of a statement
preserves. -/
structure Preserved (schema : Schema) (relation : Walk -> Walk -> Prop) : Prop where
  quiet : ∀ {before after}, before.Quiet after -> relation before after
  trans : ∀ {first second third},
    relation first second -> relation second third -> relation first third
  sources : ∀ {id statement} {before after : Walk},
    before.tree.statement id = .ok statement ->
      visitSources schema id statement before = .ok () after -> relation before after

/-- The bond of a relation that holds of steps that succeed. -/
def succeeding (relation : Walk -> Walk -> Prop) : Bond where
  done := relation
  refused _ _ _ := True

theorem obeys_succeeding
    {relation : Walk -> Walk -> Prop}
    {step : Walking α}
    (related : ∀ {walk value next}, step walk = .ok value next -> relation walk next) :
    Obeys (succeeding relation) step :=
  fun _ => ObeysAt.of_cases related fun _ => trivial

theorem succeeding_lawful
    {relation : Walk -> Walk -> Prop}
    (refl : ∀ walk, relation walk walk)
    (trans : ∀ {first second third},
      relation first second -> relation second third -> relation first third) :
    (succeeding relation).Lawful where
  done_refl := refl
  refused_refl _ _ := trivial
  done_trans := trans
  refused_trans _ _ := trivial

namespace Preserved

variable {schema : Schema} {relation : Walk -> Walk -> Prop}

theorem lawful
    (preserved : Preserved schema relation) :
    (succeeding relation).Lawful :=
  succeeding_lawful (fun walk => preserved.quiet (.refl walk)) preserved.trans

theorem elementary
    (preserved : Preserved schema relation) :
    (succeeding relation).Elementary schema where
  lawful := preserved.lawful
  hold _ := obeys_succeeding fun done => preserved.quiet (quiet_of_hold done)
  records stepRecords :=
    obeys_succeeding fun done => preserved.quiet (.of_retains (stepRecords.of_ok done))
  sources found := ObeysAt.of_cases (preserved.sources found) fun _ => trivial

/-- What the visit of the sources of a statement preserves, a walk preserves. -/
theorem of_walkTree
    {before after : Walk}
    (preserved : Preserved schema relation)
    (done : walkTree schema before = .ok () after) :
    relation before after :=
  (obeys_walkTree preserved.elementary.complete).of_ok done

end Preserved
end Walking
end QueryGraph
