import QueryGraph.Proofs.Tree.Holds
import QueryGraph.Proofs.Walk.Bond

/-!
# The holds that a walk takes

Whatever a walk does and wherever it stops, it changes no node, and the holds of the
tree are those it began with, raised once for each entry in the list of holds.
-/

namespace QueryGraph
namespace Walk

/-- The holds of the tree are given ones, raised by those in the list of the walk. -/
def Raised (walk : Walk) (base : NodeId -> Hold) : Prop :=
  walk.tree.Raised base walk.guard.owner walk.guard.held

/-- A walk has only taken holds, and lists each of them. -/
structure Tallies (before after : Walk) : Prop where
  nodes : after.tree.nodes = before.tree.nodes
  owner : after.guard.owner = before.guard.owner
  held : before.guard.held <:+ after.guard.held
  raised : ∀ {base}, before.Raised base -> after.Raised base

namespace Tallies

theorem refl (walk : Walk) : walk.Tallies walk where
  nodes := rfl
  owner := rfl
  held := List.suffix_rfl
  raised := id

theorem trans
    {first second third : Walk}
    (earlier : first.Tallies second)
    (later : second.Tallies third) :
    first.Tallies third where
  nodes := later.nodes.trans earlier.nodes
  owner := later.owner.trans earlier.owner
  held := earlier.held.trans later.held
  raised raised := later.raised (earlier.raised raised)

/-- A step that touches neither the tree nor the list of holds. -/
theorem of_eq
    {before after : Walk}
    (tree : after.tree = before.tree)
    (guard : after.guard = before.guard) :
    before.Tallies after where
  nodes := by rw [tree]
  owner := by rw [guard]
  held := by
    simp only [guard, List.suffix_rfl]
  raised raised := by
    unfold Walk.Raised at raised ⊢
    rw [tree, guard]
    exact raised

theorem of_retains
    {before after : Walk}
    (retains : before.Retains after) :
    before.Tallies after :=
  .of_eq retains.tree retains.guard

/-- What covers the holds after a walk covers those before it. -/
theorem held_subset
    {before after : Walk}
    {ids : List NodeId}
    (tallies : before.Tallies after)
    (covered : after.guard.held ⊆ ids) :
    before.guard.held ⊆ ids :=
  List.Subset.trans tallies.held.subset covered

end Tallies
end Walk

namespace Walking

/-- A hold that is refused leaves the walk as it was. -/
theorem hold_of_error
    {id : NodeId}
    {walk next : Walk}
    {error : CompileError}
    (refused : hold id walk = .error error next) :
    next = walk := by
  rcases Tree.freeze_cases id walk.guard.owner walk.tree with ⟨-, -, taken⟩ | ⟨other, same⟩
  · rw [hold_eq_ok.mpr ⟨_, taken, rfl⟩] at refused
    cases refused
  · rw [hold_of_refused same] at refused
    cases refused
    rfl

/-- A hold that is taken is the only thing that a walk gains. -/
theorem tallies_of_hold
    {id : NodeId}
    {walk next : Walk}
    (done : hold id walk = .ok () next) :
    walk.Tallies next := by
  obtain ⟨tree, taken, rfl⟩ := hold_eq_ok.mp done
  refine ⟨?_, rfl, List.suffix_cons id walk.guard.held, fun raised => raised.freeze taken⟩
  rcases Tree.freeze_cases id walk.guard.owner walk.tree with ⟨-, -, same⟩ | ⟨error, refused⟩
  · rw [same] at taken
    cases taken
    rfl
  · rw [refused] at taken
    cases taken

/-- The bond of a walk that takes holds and changes nothing else of the tree. -/
def tally : Bond where
  done := Walk.Tallies
  refused _ := Walk.Tallies

theorem tally_lawful : tally.Lawful where
  done_refl := Walk.Tallies.refl
  refused_refl _ := Walk.Tallies.refl
  done_trans := Walk.Tallies.trans
  refused_trans := Walk.Tallies.trans

theorem tally_primitive : tally.Primitive where
  lawful := tally_lawful
  hold id walk := by
    refine ObeysAt.of_cases tallies_of_hold fun {error next} refused => ?_
    rw [hold_of_error refused]
    exact Walk.Tallies.refl walk
  records stepRecords walk := by
    refine ObeysAt.of_cases (fun done => ?_) fun refused => ?_
    · exact .of_retains (stepRecords.of_ok done)
    · exact .of_retains (stepRecords.of_error refused).2

namespace Tally

theorem onSources (action : Graphing α) : Obeys tally (onSources action) := by
  intro walk
  unfold ObeysAt Walking.onSources
  cases action walk.sources <;> exact Walk.Tallies.of_eq rfl rfl

theorem visitRoot
    (schema : Schema)
    (isFirst : Bool)
    (root : NodeId) :
    Obeys tally (visitRoot schema isFirst root) := by
  apply Obeys.bind tally_lawful (Obeys.read tally_lawful _)
  intro source
  apply Obeys.bind tally_lawful (tally_primitive.holdAll source.ids)
  intro _
  cases isFirst with
  | true =>
      exact Obeys.bind tally_lawful (onSources _) fun vertex => Obeys.pure tally_lawful [vertex]
  | false => exact Obeys.pure tally_lawful []

theorem visitCorrelation (statement correlated : NodeId) :
    Obeys tally (visitCorrelation statement correlated) := by
  apply Obeys.bind tally_lawful (tally_primitive.hold correlated)
  intro _
  apply Obeys.bind tally_lawful (Obeys.read tally_lawful _)
  intro outer
  refine Obeys.bind tally_lawful Walk.Tallies.refl fun walk => ?_
  cases walk.sources.declared.find? outer with
  | none => exact Obeys.throw tally_lawful fun _ => nofun
  | some vertex => exact onSources _

theorem visitSources
    (schema : Schema)
    (id : NodeId)
    (statement : Statement) :
    Obeys tally (visitSources schema id statement) := by
  refine Obeys.bind tally_lawful Walk.Tallies.refl fun walk => ?_
  by_cases empty : (statement.roots.isEmpty && statement.correlations.isEmpty) = true
  · simp only [if_pos empty]
    exact Obeys.throw tally_lawful fun _ => nofun
  simp only [if_neg empty]
  refine Obeys.bind tally_lawful
    (Obeys.mapM tally_lawful fun root _ => visitRoot schema _ root) fun roots => ?_
  refine Obeys.bind tally_lawful
    (Obeys.forM tally_lawful fun correlated _ => visitCorrelation id correlated) fun _ => ?_
  split
  · exact fun _ => Walk.Tallies.of_eq rfl rfl
  · exact Obeys.pure tally_lawful _

theorem visitBody
    {expression : NodeId -> Walking Unit}
    (schema : Schema)
    (id : NodeId)
    (statement : Statement)
    (expressionObeys : ∀ id, Obeys tally (expression id)) :
    Obeys tally (visitBody schema expression id statement) :=
  fun _ => tally_primitive.visitBody_at expressionObeys fun next _ =>
    visitSources schema id statement next

end Tally

theorem tally_complete (schema : Schema) : tally.Complete schema :=
  Bond.Elementary.complete
    { tally_primitive with sources := fun _ => Tally.visitSources schema _ _ _ }

/-- A walk holds the top statement when it ends. -/
theorem top_mem_held
    {schema : Schema}
    {before after : Walk}
    (done : walkTree schema before = .ok () after) :
    Tree.top ∈ after.guard.held := by
  unfold walkTree at done
  rw [Operation.bind_of_ok (Operation.get_apply before)] at done
  obtain ⟨-, held, statement, holds, -, inside⟩ := enterStatement_eq_ok.mp done
  have rest : held.Tallies after :=
    (tally_primitive.within _ (Tally.visitBody schema Tree.top statement
      (obeys_visitExpression tally_primitive.expressive
        (obeys_visitStatement (tally_complete schema) _ _) _))).of_ok inside
  obtain ⟨tree, -, rfl⟩ := hold_eq_ok.mp holds
  exact rest.held.subset List.mem_cons_self

end Walking
end QueryGraph
