import QueryGraph.Proofs.Compile.Numbering
import QueryGraph.Proofs.Compile.Shape
import QueryGraph.Proofs.Walk.Scope
import QueryGraph.Report.Basic

/-!
# Reporting results

The walk numbers the occurrences of a path, so each of them can be told from the others. A vertex
that a compiled path leads through is used, the descents from the roots meet it, and so it has an
alias. Every occurrence can therefore be looked up and rendered, as the alias of the nearest vertex
followed by the fields below it, and so can the whole result.
-/

namespace QueryGraph

/-! ## The text of a path -/

namespace CompiledPath

/-- The text of links, nearest first, the first vertex among which has an alias: each field below
the vertex follows with a dot, and a treat encloses what comes before it. -/
def spellLinks (aliasName : String) : List PathLink -> String
  | [] => aliasName
  | link :: above =>
      match link.target with
      | .vertex _ => link.treated aliasName
      | .field name => link.treated (spellLinks aliasName above ++ "." ++ name)

/-- The names of the fields that a path leads over, from the root on. -/
def fieldNames (path : CompiledPath) : List String := path.chain.filterMap PathLink.field?

/-- The text of a path whose nearest vertex has an alias. -/
def spell (path : CompiledPath) (aliasName : String) : String :=
  spellLinks aliasName path.links

/-- Where nothing is treated, the text is the alias and the names of the fields, joined by dots. -/
theorem spellLinks_of_untreated
    {links : List PathLink}
    {names : List String}
    {vertices : List VertexId}
    (untreated : ∀ link ∈ links, link.treatAs = none)
    (targets : links.map PathLink.target =
      names.reverse.map LinkTarget.field ++ vertices.map LinkTarget.vertex)
    (aliasName : String) :
    spellLinks aliasName links =
      names.foldl (fun text name => text ++ "." ++ name) aliasName := by
  induction links generalizing names with
  | nil =>
      have none : names.reverse.map LinkTarget.field = [] :=
        (List.append_eq_nil_iff.mp targets.symm).1
      rw [List.map_eq_nil_iff, List.reverse_eq_nil_iff] at none
      rw [none]
      rfl
  | cons link above inductionHypothesis =>
      have plain : ∀ text, link.treated text = text := fun text => by
        rw [PathLink.treated, untreated link List.mem_cons_self]
      have rest := fun other member => untreated other (List.mem_cons_of_mem link member)
      cases names using List.reverseRecOn with
      | nil =>
          cases vertices with
          | nil => cases targets
          | cons id vertices =>
              obtain ⟨target, -⟩ := List.cons.inj targets
              simp [spellLinks, target, plain]
      | append_singleton names name =>
          simp only [List.reverse_concat, List.map_cons, List.cons_append] at targets
          obtain ⟨target, aboveTargets⟩ := List.cons.inj targets
          rw [List.foldl_concat, ← inductionHypothesis rest aboveTargets]
          simp [spellLinks, target, plain]

end CompiledPath

namespace JoinGraph

variable {graph : JoinGraph}

/-- Links are rendered as the text below the nearest vertex, if this one has an alias. -/
theorem renderLinks_eq
    {links : List PathLink}
    {id : VertexId}
    (nearest : links.findSome? PathLink.vertex? = some id) :
    graph.renderLinks links =
      (graph.aliasOf id).map fun aliasName => CompiledPath.spellLinks aliasName links := by
  induction links with
  | nil => cases nearest
  | cons link above inductionHypothesis =>
      unfold renderLinks CompiledPath.spellLinks
      cases target : link.target with
      | vertex first =>
          have isFirst : link.vertex? = some first := by simp [PathLink.vertex?, target]
          rw [List.findSome?_cons, isFirst] at nearest
          cases nearest
          rfl
      | field name =>
          have notFirst : link.vertex? = none := by simp [PathLink.vertex?, target]
          rw [List.findSome?_cons, notFirst] at nearest
          cases above with
          | nil => cases nearest
          | cons next rest =>
              simp only [inductionHypothesis nearest]
              cases graph.aliasOf id <;> rfl

end JoinGraph

namespace CompiledGraph

variable {compiled : CompiledGraph} {identity : PathIdentity} {path : CompiledPath}

/-- An occurrence of a path is rendered as the alias of the nearest vertex of the path, followed by
the fields below it. -/
def Spells
    (compiled : CompiledGraph)
    (identity : PathIdentity)
    (path : CompiledPath) : Prop :=
  ∃ id aliasName, path.nearestVertex? = some id ∧
    compiled.graph.aliasOf id = .ok aliasName ∧
    compiled.renderPath identity = .ok (path.spell aliasName) ∧
    ((∀ link ∈ path.links, link.treatAs = none) ->
      path.spell aliasName =
        path.fieldNames.foldl (fun text name => text ++ "." ++ name) aliasName)

/-- A summary tells the used vertices by their numbers, each with its alias. -/
structure Summarizes (compiled : CompiledGraph) (summary : Summary) : Prop where
  numbers : summary.vertices.map VertexSummary.identifier =
    List.range compiled.graph.usedCount
  labels : ∀ told ∈ summary.vertices, ∃ id,
    compiled.graph.vertex? id = some told.vertex ∧
      compiled.graph.label? id = some ⟨told.identifier, told.aliasName⟩

/-- The occurrences of paths in a result are told apart, and the result can be reported. -/
structure Reports (compiled : CompiledGraph) : Prop where
  distinct : compiled.identities.Nodup
  /-- The occurrences of a path count from zero, in the order of the walk. -/
  positions : ∀ node,
    (PathIdentity.occurrences node compiled.identities).map PathIdentity.position =
      List.range (PathIdentity.occurrences node compiled.identities).length
  found : ∀ {identity}, identity ∈ compiled.identities ->
    ∃ path, (identity, path) ∈ compiled.paths ∧ compiled.lookup identity = .ok path
  rendered : ∀ {identity}, identity ∈ compiled.identities ->
    ∃ text, compiled.renderPath identity = .ok text
  /-- A path is written as the alias of its nearest vertex, followed by the fields below it. -/
  spelled : ∀ {identity path}, (identity, path) ∈ compiled.paths ->
    compiled.Spells identity path
  report : ∃ text, compiled.report = .ok text
  summary : ∃ summary, compiled.summary = .ok summary ∧ compiled.Summarizes summary
  jsonReport : ∃ text, compiled.jsonReport = .ok text

theorem lookup_of_mem
    (distinct : compiled.identities.Nodup)
    (member : (identity, path) ∈ compiled.paths) :
    compiled.lookup identity = .ok path := by
  unfold lookup
  rw [Entries.lookup_of_mem distinct member]

/-- The paths of a result are told where they are rendered. -/
theorem exists_pathSummaries_eq_ok
    (rendered : ∀ identity ∈ compiled.identities,
      ∃ text, compiled.renderPath identity = .ok text) :
    ∃ paths, compiled.pathSummaries = .ok paths := by
  refine Operation.exists_mapM_eq_ok fun identity member => ?_
  obtain ⟨text, done⟩ := rendered identity member
  refine ⟨⟨identity, text⟩, ?_⟩
  unfold pathSummary
  rw [done]
  rfl

/-- A vertex that has an alias is told with it. -/
theorem exists_vertexSummary_eq_ok
    {id : VertexId}
    {aliasName : String}
    (named : compiled.graph.aliasOf id = .ok aliasName) :
    ∃ summary, compiled.vertexSummary id = .ok summary := by
  unfold vertexSummary
  rw [named]
  unfold JoinGraph.aliasOf at named
  cases found : compiled.graph.vertex? id with
  | none =>
      rw [found] at named
      cases named
  | some vertex => exact ⟨⟨vertex.identifier.getD 0, aliasName, vertex⟩, rfl⟩

/-- What is told of a result is told where its used vertices have aliases and its paths are
rendered. -/
theorem exists_summary_eq_ok
    (named : ∀ id ∈ compiled.graph.labelled, ∃ text, compiled.graph.aliasOf id = .ok text)
    (rendered : ∀ identity ∈ compiled.identities,
      ∃ text, compiled.renderPath identity = .ok text) :
    ∃ summary, compiled.summary = .ok summary := by
  obtain ⟨vertices, vertexDone⟩ := Operation.exists_mapM_eq_ok fun id member => by
    obtain ⟨text, done⟩ := named id member
    exact exists_vertexSummary_eq_ok done
  obtain ⟨paths, pathsDone⟩ := exists_pathSummaries_eq_ok rendered
  unfold summary
  rw [vertexDone, pathsDone]
  exact ⟨_, rfl⟩

/-- A summary consists of those of the used vertices and those of the paths. -/
theorem parts_of_summary
    {summary : Summary}
    (summarized : compiled.summary = .ok summary) :
    compiled.graph.labelled.mapM compiled.vertexSummary = .ok summary.vertices ∧
      compiled.pathSummaries = .ok summary.paths := by
  unfold CompiledGraph.summary at summarized
  cases vertices : compiled.graph.labelled.mapM compiled.vertexSummary with
  | error error =>
      rw [vertices] at summarized
      cases summarized
  | ok used =>
      rw [vertices] at summarized
      cases paths : compiled.pathSummaries with
      | error error =>
          rw [paths] at summarized
          cases summarized
      | ok listed =>
          rw [paths] at summarized
          cases summarized
          exact ⟨rfl, rfl⟩

/-- A vertex that has a label is told with its number and its alias. -/
theorem label?_of_vertexSummary
    {id : VertexId}
    {told : VertexSummary}
    (labelled : ∃ label, compiled.graph.label? id = some label)
    (done : compiled.vertexSummary id = .ok told) :
    compiled.graph.vertex? id = some told.vertex ∧
      compiled.graph.label? id = some ⟨told.identifier, told.aliasName⟩ := by
  obtain ⟨label, hasLabel⟩ := labelled
  obtain ⟨vertex, found, isLabel⟩ := Option.bind_eq_some_iff.mp hasLabel
  have parts : vertex.identifier = some label.identifier ∧
      vertex.aliasName = some label.aliasName := by
    unfold Vertex.label at isLabel
    split at isLabel
    · next number name isNumber isName =>
        cases isLabel
        exact ⟨isNumber, isName⟩
    · cases isLabel
  unfold vertexSummary JoinGraph.aliasOf at done
  simp only [found, Option.bind_some, parts.2] at done
  cases done
  refine ⟨found, hasLabel.trans ?_⟩
  rw [parts.1]
  rfl

/-- Where the labels number the used vertices, so does every summary. -/
theorem summarizes
    {roots : List VertexId}
    {summary : Summary}
    (enumerated : compiled.graph.Enumerated roots)
    (summarized : compiled.summary = .ok summary) :
    compiled.Summarizes summary := by
  obtain ⟨answered, -⟩ := parts_of_summary summarized
  have known : ∀ id ∈ compiled.graph.labelled, ∀ told, compiled.vertexSummary id = .ok told ->
      compiled.graph.vertex? id = some told.vertex ∧
        compiled.graph.label? id = some ⟨told.identifier, told.aliasName⟩ := by
    intro id member told done
    have used := (enumerated.complete id).mp member
    exact label?_of_vertexSummary ((enumerated.labelled id).mpr used) done
  refine ⟨?_, fun told member => ?_⟩
  · have numbers : (summary.vertices.map VertexSummary.identifier).map some =
        compiled.graph.labelled.map
          fun id => (compiled.graph.label? id).map VertexLabel.identifier := by
      rw [List.map_map]
      refine Operation.map_eq_of_mapM answered fun id member told done => ?_
      rw [(known id member told done).2]
      rfl
    rw [enumerated.listed] at numbers
    exact List.map_injective_iff.mpr (Option.some_injective Nat) numbers
  · obtain ⟨id, listed, done⟩ := Operation.exists_of_mem_mapM answered member
    exact ⟨id, known id listed told done⟩

end CompiledGraph

namespace Tree.Course

variable {tree : Tree} {schema : Schema} {config : CompilerConfig} {owner : Owner}
  {compiled : CompiledGraph} {walk : Walk} {graph : JoinGraph} {fetched : GraphState}
  {walked followed : List GraphEvent}
  (course : tree.Course schema config owner compiled walk graph fetched walked followed)

include course

theorem numbered : PathIdentity.Numbered compiled.identities := by
  unfold CompiledGraph.identities
  rw [PathContext.identities_of_compilePaths course.paths]
  exact (Walking.situated_of_walkTree course.walkDone).numbers.numbered

theorem isUsed_of_path
    {identity : PathIdentity}
    {path : CompiledPath}
    {id : VertexId}
    (member : (identity, path) ∈ compiled.paths)
    (leads : id ∈ path.vertices) :
    compiled.graph.isUsed id = true := by
  obtain ⟨history, tells⟩ := course.tells
  have reference := tells.references.mpr ⟨identity, path, member, leads⟩
  exact JoinGraph.isUsed_iff.mpr (tells.chronicle.used.mpr (Or.inl ⟨_, reference, rfl, rfl⟩))

/-- A path of a result is rendered from the alias of its nearest vertex. -/
theorem spells
    {identity : PathIdentity}
    {path : CompiledPath}
    (reachable : tree.Reachable)
    (member : (identity, path) ∈ compiled.paths) :
    compiled.Spells identity path := by
  obtain ⟨-, route, first, further, names, -, -, traces, -⟩ :=
    course.traces_of_path reachable member
  obtain ⟨id, nearest⟩ : ∃ id, path.nearestVertex? = some id := by
    rw [traces.shape.nearest]
    exact ⟨_, List.getLast?_cons⟩
  have leads : id ∈ path.vertices := by
    have last := List.mem_of_getLast? (traces.shape.nearest.symm.trans nearest)
    rw [traces.shape.vertices_eq]
    exact List.mem_reverse.mpr last
  obtain ⟨aliasName, named⟩ :=
    (course.enumerated.1.named id).mpr (course.isUsed_of_path member leads)
  refine ⟨id, aliasName, nearest, named, ?_, fun untreated => ?_⟩
  · unfold CompiledGraph.renderPath
    rw [CompiledGraph.lookup_of_mem course.numbered.nodup member]
    change compiled.graph.renderLinks path.links = _
    rw [JoinGraph.renderLinks_eq nearest, named]
    rfl
  · rw [CompiledPath.fieldNames, traces.shape.filterMap_field?]
    exact CompiledPath.spellLinks_of_untreated untreated traces.shape.targets_eq aliasName

theorem reports (reachable : tree.Reachable) : compiled.Reports := by
  have distinct := course.numbered.nodup
  have found : ∀ {identity}, identity ∈ compiled.identities ->
      ∃ path, (identity, path) ∈ compiled.paths ∧ compiled.lookup identity = .ok path := by
    intro identity member
    obtain ⟨⟨_, path⟩, listed, rfl⟩ := List.mem_map.mp member
    exact ⟨path, listed, CompiledGraph.lookup_of_mem distinct listed⟩
  have rendered : ∀ {identity}, identity ∈ compiled.identities ->
      ∃ text, compiled.renderPath identity = .ok text := by
    intro identity member
    obtain ⟨path, listed, -⟩ := found member
    obtain ⟨-, aliasName, -, -, text, -⟩ := course.spells reachable listed
    exact ⟨path.spell aliasName, text⟩
  obtain ⟨paths, told⟩ :=
    CompiledGraph.exists_pathSummaries_eq_ok fun identity member => rendered member
  obtain ⟨summary, summarized⟩ := CompiledGraph.exists_summary_eq_ok
    (fun id member => (course.enumerated.1.named id).mpr
      ((course.enumerated.1.complete id).mp member))
    fun identity member => rendered member
  refine ⟨distinct, course.numbered.positions, found, rendered, course.spells reachable, ?_,
    ⟨summary, summarized, CompiledGraph.summarizes course.enumerated.1 summarized⟩, ?_⟩
  · unfold CompiledGraph.report
    rw [told]
    exact ⟨_, rfl⟩
  · unfold CompiledGraph.jsonReport
    rw [summarized]
    exact ⟨_, rfl⟩

end Tree.Course

namespace Tree

/-- Of every result the occurrences of paths can be told apart, looked up and rendered, and its
reports are never refused. -/
theorem compiled_reports
    {tree held : Tree}
    {schema : Schema}
    {config : CompilerConfig}
    {owner : Owner}
    {compiled : CompiledGraph}
    (reachable : tree.Reachable)
    (done : tree.compile schema config owner = (.ok compiled, held)) :
    compiled.Reports := by
  obtain ⟨walk, graph, fetched, walked, followed, course⟩ := compile_course reachable done
  exact course.reports reachable

/-- Employees with names. -/
def colleagues : Schema :=
  ⟨⟨[("Employee", .ofFields "Employee" [.scalar "name"])]⟩⟩

/-- A subquery for the names of all employees that is selected twice. -/
def namesTwice : Tree :=
  (ofKind .query).performAll [
    .build (.root top "Employee"),
    .build (.subquery top),
    .build (.root ⟨2⟩ "Employee"),
    .build (.access ⟨3⟩ "name"),
    .build (.select ⟨2⟩ ⟨4⟩),
    .build (.select top ⟨2⟩),
    .build (.select top ⟨2⟩)]

/-- Both occurrences of the name have the same surroundings, and different positions. -/
theorem namesTwice_reports :
    ∃ compiled held around,
      namesTwice.compile colleagues {} ⟨8⟩ = (.ok compiled, held) ∧
        compiled.identities = [⟨⟨4⟩, around, 0⟩, ⟨⟨4⟩, around, 1⟩] ∧ compiled.Reports := by
  have succeeds : ((namesTwice.compile colleagues {} ⟨8⟩).1.toOption.any fun compiled =>
      decide (compiled.identities =
        [⟨⟨4⟩, [.clause .selection, .statement ⟨2⟩ .subquery, .clause .selection,
            .statement top .query], 0⟩,
          ⟨⟨4⟩, [.clause .selection, .statement ⟨2⟩ .subquery, .clause .selection,
            .statement top .query], 1⟩])) = true := by
    cbv
  obtain ⟨compiled, held, done, identities⟩ := exists_compiled succeeds
  exact ⟨compiled, held, _, done, of_decide_eq_true identities,
    compiled_reports ⟨.query, _, rfl⟩ done⟩

end Tree
end QueryGraph
