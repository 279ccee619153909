import Mathlib
import QueryGraph.Proofs.Compile.Refusal
import QueryGraph.Proofs.Document.Build

/-!
# Compiling the tree of a document

The names of a document become sources that can be seen from where they are mentioned, its
subqueries stand inside one another, and equal names of placeholders become one placeholder. So the
tree of a document is never refused for how its nodes refer to one another, and a positional
placeholder is met twice only where its label is written twice.
-/

namespace QueryGraph

open Operation

/-- An error about how the nodes of a tree refer to one another, or about who holds them. -/
def CompileError.isStructural : CompileError -> Bool
  | .recursiveSubquery _ | .namedParameterConflict _ _ _ | .tree _ | .freeze _ => true
  | _ => false

/-- A declaration fails for the schema, or for an earlier declaration. -/
theorem CompileError.FailsDeclaration.not_structural
    {error : CompileError}
    (fails : error.FailsDeclaration) :
    error.isStructural = false ∧ ∀ parameter, error ≠ .anonymousParameterReused parameter := by
  rcases fails with lookup | merge
  · cases lookup <;> exact ⟨rfl, fun _ => nofun⟩
  · cases merge <;> exact ⟨rfl, fun _ => nofun⟩

namespace Document

variable {draft : Draft} {leaves : List Leaf} {marks : List Mark} {id : NodeId} {label : String}

/-- A positional placeholder leaves its mark as often as its label is written. -/
theorem Draft.Sound.count_anonymous
    (sound : draft.Sound)
    (listed : draft.labels.lookup label = some id)
    (means : List.Forall₂ draft.Means leaves marks) :
    marks.count (.anonymous id) = (leaves.filterMap Leaf.label?).count label := by
  induction means with
  | nil => rfl
  | @cons leaf mark leaves marks means _ inductionHypothesis =>
      cases means with
      | path => simpa [List.filterMap_cons, Leaf.label?] using inductionHypothesis
      | named name => simpa [List.filterMap_cons, Leaf.label?] using inductionHypothesis
      | literal value => simpa [List.filterMap_cons, Leaf.label?] using inductionHypothesis
      | @anonymous other node found =>
          have same : node = id ↔ other = label := by
            constructor
            · rintro rfl
              exact sound.distinct other label node found listed
            · rintro rfl
              exact Option.some.inj (found.symm.trans listed)
          simp [Leaf.label?, List.count_cons, inductionHypothesis, same]

/-- A positional placeholder that is marked has a label. -/
theorem Draft.exists_label
    (means : List.Forall₂ draft.Means leaves marks)
    (marked : Mark.anonymous id ∈ marks) :
    ∃ label, draft.labels.lookup label = some id := by
  induction means with
  | nil => cases marked
  | cons means _ inductionHypothesis =>
      rcases List.mem_cons.mp marked with rfl | later
      · cases means with
        | anonymous found => exact ⟨_, found⟩
      · exact inductionHypothesis later

end Document

namespace Tree

variable {tree : Tree} {owner : Owner} {error : CompileError} {marks : List Mark}

/-- Where all visits stay inside the statements around them, where a name has one placeholder, and
where nobody holds anything, only the schema, a statement without roots or a positional placeholder
that is met twice can be in the way. -/
theorem Permits.of_tells
    (tells : tree.Tells tree.visits marks)
    (free : ∀ node, tree.frozenBy node = none)
    (unique : ∀ name first second, tree.node? first = some (.parameter (some name)) ->
      tree.node? second = some (.parameter (some name)) -> first = second)
    (permits : tree.Permits owner error) :
    error.isStructural = false ∧
      ∀ parameter, error = .anonymousParameterReused parameter ->
        2 ≤ marks.count (.anonymous parameter) := by
  cases permits with
  | noRoots statement => exact ⟨rfl, fun _ => nofun⟩
  | declaration fails =>
      obtain ⟨noFault, noReuse⟩ := fails.not_structural
      exact ⟨noFault, fun parameter same => absurd same (noReuse parameter)⟩
  | @frozen node other isHeld differs =>
      rw [free node] at isHeld
      cases isHeld
  | recursion visited isOpen => exact absurd isOpen (tells.suits _ visited).closed
  | path statement visited found outside =>
      exact absurd ((tells.suits _ visited).path _ found) outside
  | correlation visited found listed resolved isSource outside =>
      exact absurd ((tells.suits _ visited).correlations _ _ _ _ found listed resolved isSource)
        outside
  | conflict firstVisited secondVisited firstFound secondFound differ =>
      exact absurd (unique _ _ _ firstFound secondFound) differ
  | reuse twice =>
      refine ⟨rfl, fun parameter same => ?_⟩
      cases same
      rwa [← tells.marks, count_marks_anonymous]

/-- A tree is visited as its top statement is visited outside all statements. -/
theorem YieldsStatement.tells_visits
    {body : Statement}
    (yields : tree.YieldsStatement top marks)
    (orderly : tree.Orderly)
    (found : tree.node? top = some (.statement body))
    (outermost : body.parent = none) :
    tree.Tells tree.visits marks := by
  let setting : tree.Setting top.index := {
    later := tree
    enclosing := []
    bound := tree.size + 1
    fuel := tree.size + 1
    orderly := orderly
    evolves := .of_eq fun _ => rfl
    keeps := Keeps.refl tree _
    nested := List.forall_mem_nil _
    statements := List.forall_mem_nil _
    older := List.forall_mem_nil _
    wide := Nat.le_succ _
    deep := Nat.le_trans (Nat.le_succ _) (Nat.le_add_left _ _) }
  refine yields setting fun other around present parent => ?_
  rw [show tree.node? top = _ from present] at found
  cases found
  rw [outermost] at parent
  cases parent

end Tree

namespace QueryDocument

variable {document : QueryDocument} {tree held : Tree} {schema : Schema} {config : CompilerConfig}
  {owner : Owner} {error : CompileError}

theorem isTopLevel_topKind (document : QueryDocument) : document.topKind.isTopLevel = true := by
  unfold topKind
  cases document.kind <;> rfl

/-- The tree of a document is never refused for how its nodes refer to one another or for who holds
them. It is refused for a positional placeholder only if some label is written twice. -/
theorem built_refusal
    (built : document.build = .ok tree)
    (failed : tree.compile schema config owner = (.error error, held)) :
    error.isStructural = false ∧
      ∀ parameter, error = .anonymousParameterReused parameter ->
        ∃ label, 2 ≤ document.statement.labels.count label := by
  obtain ⟨draft, rfl, sound, changes, marks, means, yields⟩ :=
    Document.exists_draft_of_build built
  have orderly := sound.orderly
  obtain ⟨node, found, same⟩ := changes.evolves Tree.top _ rfl
  obtain ⟨body, rfl, sameKind, outermost⟩ := Node.shape_eq_statement same
  have isTopLevel : body.kind.isTopLevel = true := by
    rw [sameKind]
    exact document.isTopLevel_topKind
  have free (node : NodeId) : draft.tree.frozenBy node = none := by
    rw [Tree.frozenBy, changes.hold_eq, Tree.hold_ofKind]
  have unique (name : String) (first second : NodeId)
      (firstFound : draft.tree.node? first = some (.parameter (some name)))
      (secondFound : draft.tree.node? second = some (.parameter (some name))) : first = second :=
    Option.some.inj ((sound.named first name firstFound).symm.trans
      (sound.named second name secondFound))
  obtain ⟨noFault, reused⟩ := (Tree.permits_of_compile orderly found isTopLevel failed).of_tells
    (yields.tells_visits orderly found outermost) free unique
  refine ⟨noFault, fun parameter same => ?_⟩
  have twice := reused parameter same
  obtain ⟨label, listed⟩ := Document.Draft.exists_label means
    (List.count_pos_iff.mp (Nat.lt_of_lt_of_le Nat.zero_lt_two twice))
  rw [sound.count_anonymous listed means] at twice
  exact ⟨label, twice⟩

/-- The limits of all crews, where a subquery asks for the same limit once more. -/
def crewLimits : QueryDocument where
  statement := {
    sources := [{ recordType := "Crew", name := some "crew" }]
    selection := [.anonymous "limit"]
    restriction := some (.subquery {
      sources := [{ recordType := "Sailor" }]
      selection := [.anonymous "limit", .parameter "rank"] }) }

/-- The limits are refused for nothing but the label that is written twice. -/
theorem crewLimits_built_refusal :
    ∃ tree held, crewLimits.build = .ok tree ∧
      tree.compile Tree.crews {} ⟨8⟩ = (.error (.anonymousParameterReused ⟨2⟩), held) ∧
      CompileError.isStructural (.anonymousParameterReused ⟨2⟩) = false ∧
      ∃ label, 2 ≤ crewLimits.statement.labels.count label := by
  have outcome : (crewLimits.build.toOption.map fun tree =>
      (tree.compile Tree.crews {} ⟨8⟩).1) = some (.error (.anonymousParameterReused ⟨2⟩)) := by
    cbv
  cases built : crewLimits.build with
  | error fault =>
      rw [built] at outcome
      cases outcome
  | ok tree =>
      rw [built] at outcome
      have failed : tree.compile Tree.crews {} ⟨8⟩ = (.error (.anonymousParameterReused ⟨2⟩),
          (tree.compile Tree.crews {} ⟨8⟩).2) :=
        Prod.ext (Option.some.inj outcome) rfl
      obtain ⟨noFault, reused⟩ := built_refusal built failed
      exact ⟨tree, _, rfl, failed, noFault, reused _ rfl⟩

end QueryDocument
end QueryGraph
