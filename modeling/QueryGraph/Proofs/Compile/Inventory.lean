import Mathlib
import QueryGraph.Proofs.Compile.Documents

/-!
# What is compiled of a document

The document and its tree are walked in the same order, though the document lists its clauses in
another one and its conditions apart from the joins. So whatever is written in a document comes to
one entry of the result, and there is no entry for anything else.
-/

namespace QueryGraph

open Operation

/-- A result with one entry for each form of a statement, and nothing else. -/
structure CompiledGraph.Inventory
    (compiled : CompiledGraph)
    (tree : Tree)
    (statement : Document.Statement) : Prop where
  /-- The constants are those that are written, as often as they are written. -/
  literals : compiled.literals.map Prod.snd = statement.literals
  literalNode : ∀ id value, (id, value) ∈ compiled.literals ->
    tree.node? id = some (.literal value)
  /-- The names are those that are written, each where it is written first. -/
  named : compiled.parameters.named.map Prod.fst = statement.names.eraseDups
  distinct : (compiled.parameters.named.map Prod.fst).Nodup
  namedNode : ∀ name id, (name, id) ∈ compiled.parameters.named ->
    tree.node? id = some (.parameter (some name))
  /-- A label is written once, and has a position of its own. -/
  labels : statement.labels.Nodup
  positions : compiled.parameters.anonymous.Nodup
  anonymous : compiled.parameters.anonymous.length = statement.labels.length
  anonymousNode : ∀ id ∈ compiled.parameters.anonymous,
    tree.node? id = some (.parameter none)
  /-- A path has an identity of its own, whose node is spelled as the path is written. -/
  identities : compiled.identities.Nodup
  paths : List.Forall₂ (fun written identity => tree.Spells identity.node written)
    statement.paths compiled.identities

namespace Document.Draft

variable {draft : Draft} {forms : List Form} {marks : List Mark}

theorem forall₂_path
    (denotes : List.Forall₂ draft.Denotes forms marks) :
    List.Forall₂ (fun written id => draft.tree.Spells id written)
      (forms.filterMap Form.path?) (marks.filterMap Mark.path?) := by
  refine List.rel_filterMap (fun form mark each => ?_) denotes
  cases each with
  | path spells => exact .some spells
  | _ => exact .none

theorem forall₂_label
    (denotes : List.Forall₂ draft.Denotes forms marks) :
    List.Forall₂ (fun label id => draft.labels.lookup label = some id)
      (forms.filterMap Form.label?) (marks.filterMap Mark.anonymous?) := by
  refine List.rel_filterMap (fun form mark each => ?_) denotes
  cases each with
  | anonymous found => exact .some found
  | _ => exact .none

theorem names_eq
    (denotes : List.Forall₂ draft.Denotes forms marks) :
    forms.filterMap Form.named? = marks.filterMap Mark.named? := by
  rw [← List.forall₂_eq_eq_eq]
  refine List.rel_filterMap (fun form mark each => ?_) denotes
  cases each with
  | named name => exact .some rfl
  | _ => exact .none

theorem literals_eq
    (denotes : List.Forall₂ draft.Denotes forms marks) :
    forms.filterMap Form.literal? = (marks.filterMap Mark.literal?).map Prod.snd := by
  rw [← List.forall₂_eq_eq_eq, List.forall₂_map_right_iff]
  refine List.rel_filterMap (fun form mark each => ?_) denotes
  cases each with
  | literal value => exact .some rfl
  | _ => exact .none

/-- Labels of distinct placeholders are distinct. -/
theorem nodup_of_forall₂
    {table : List (String × NodeId)}
    {labels : List String}
    {ids : List NodeId}
    (listed : List.Forall₂ (fun label id => table.lookup label = some id) labels ids)
    (nodup : ids.Nodup) :
    labels.Nodup := by
  have same : labels.map (fun label => table.lookup label) = ids.map some := by
    rw [← List.forall₂_eq_eq_eq, List.forall₂_map_left_iff, List.forall₂_map_right_iff]
    exact listed
  refine List.Nodup.of_map (fun label => table.lookup label) ?_
  rw [same]
  exact nodup.map (Option.some_injective _)

end Document.Draft

namespace QueryDocument

variable {document : QueryDocument} {tree held : Tree} {schema : Schema} {config : CompilerConfig}
  {owner : Owner} {compiled : CompiledGraph}

/-- The tree of a document begins with a top-level statement that stands in no other one. -/
theorem exists_top
    (changes : (Tree.ofKind document.topKind).Changes tree) :
    ∃ body, tree.node? Tree.top = some (.statement body) ∧ body.kind.isTopLevel = true ∧
      body.parent = none := by
  obtain ⟨node, found, same⟩ := changes.evolves Tree.top _ rfl
  obtain ⟨body, rfl, sameKind, outermost⟩ := Node.shape_eq_statement same
  refine ⟨body, found, ?_, outermost⟩
  rw [sameKind]
  exact document.isTopLevel_topKind

/-- Whatever is written in a document that compiles is compiled once, and nothing else is. -/
theorem built_inventory
    (built : document.build = .ok tree)
    (done : tree.compile schema config owner = (.ok compiled, held)) :
    compiled.Inventory tree document.statement := by
  obtain ⟨draft, rfl, sound, changes, marks, denotes, yields⟩ :=
    Document.exists_forms_of_build built
  have orderly := sound.orderly
  obtain ⟨body, found, isTopLevel, outermost⟩ := exists_top changes
  obtain ⟨walk, walkDone, finished, -⟩ := Tree.compile_eq_ok.mp done
  obtain ⟨paths, graph, fetched, pathsDone, -, rfl⟩ := Walk.finish_eq_ok.mp finished
  have follows := (Tree.ends_startWalk orderly found isTopLevel).of_ok walkDone
  have tells := yields.tells_visits orderly found outermost
  have records : walk.Records marks := by
    rw [← tells.marks]
    exact follows.records
  have identities : (walk.result config paths fetched).identities = walk.allocator.identities :=
    PathContext.identities_of_compilePaths pathsDone
  have labelled : List.Forall₂ (fun label id => draft.labels.lookup label = some id)
      document.statement.labels walk.parameters.anonymous := by
    rw [document.statement.labels_eq, records.anonymous]
    exact Document.Draft.forall₂_label denotes
  exact {
    literals := by
      change walk.literals.map Prod.snd = _
      rw [records.literals]
      exact (Document.Draft.literals_eq denotes).symm
    literalNode := fun _ _ => follows.records.node?_of_mem_literals
    named := records.named.trans (congrArg _ (Document.Draft.names_eq denotes).symm)
    distinct := by
      change (walk.parameters.named.map Prod.fst).Nodup
      rw [records.named]
      exact Entries.nodup_eraseDups _
    namedNode := fun name id member => by
      obtain ⟨visit, -, -, present⟩ := follows.named member
      exact present
    labels := Document.Draft.nodup_of_forall₂ labelled records.nodup
    positions := records.nodup
    anonymous := labelled.length_eq.symm
    anonymousNode := fun id member => by
      replace member : id ∈ walk.parameters.anonymous := member
      rw [follows.anonymous] at member
      exact of_decide_eq_true (List.mem_filter.mp member).2
    identities := by
      rw [identities]
      exact (Walking.situated_of_walkTree walkDone).numbers.numbered.nodup
    paths := by
      have spelled := Document.Draft.forall₂_path denotes
      rw [← records.identities] at spelled
      rw [identities]
      exact List.forall₂_map_right_iff.mp spelled }

/-- The members of all crews, where a join and a subquery repeat a constant and a name. -/
def crewRoster : QueryDocument where
  statement := {
    sources := [{
      recordType := "Crew"
      name := some "c"
      joins := [{
        field := "members"
        name := some "s"
        on := some (.apply "=" [.path "s.id", .literal (.integer 7)]) }] }]
    selection := [.path "c.id", .treat (.path "s") "Sailor", .parameter "rank",
      .anonymous "first"]
    restriction := some (.subquery {
      sources := [{ recordType := "Sailor", name := some "o" }]
      selection := [.path "o", .parameter "rank", .anonymous "second",
        .literal (.integer 7)] }) }

/-- Two constants, one name, two positions and four paths are compiled of the roster. -/
theorem crewRoster_inventory :
    ∃ tree compiled held, crewRoster.build = .ok tree ∧
      tree.compile Tree.crews {} ⟨8⟩ = (.ok compiled, held) ∧
      compiled.literals.map Prod.snd = [.integer 7, .integer 7] ∧
      compiled.parameters.named.map Prod.fst = ["rank"] ∧
      compiled.parameters.anonymous.length = 2 ∧ compiled.identities.length = 4 ∧
      compiled.Inventory tree crewRoster.statement := by
  have succeeds : (crewRoster.build.toOption.any fun tree =>
      (tree.compile Tree.crews {} ⟨8⟩).1.toOption.any fun compiled =>
        decide (compiled.literals.map Prod.snd = [.integer 7, .integer 7] ∧
          compiled.parameters.named.map Prod.fst = ["rank"] ∧
          compiled.parameters.anonymous.length = 2 ∧ compiled.identities.length = 4)) = true := by
    cbv
  cases built : crewRoster.build with
  | error fault =>
      rw [built] at succeeds
      cases succeeds
  | ok tree =>
      rw [built] at succeeds
      obtain ⟨compiled, held, done, counted⟩ := Tree.exists_compiled succeeds
      obtain ⟨literals, named, anonymous, identities⟩ := of_decide_eq_true counted
      exact ⟨tree, compiled, held, rfl, done, literals, named, anonymous, identities,
        built_inventory built done⟩

end QueryDocument
end QueryGraph
