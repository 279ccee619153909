import QueryGraph.Proofs.Graph.Resolution
import QueryGraph.Proofs.Tree.Placement

/-!
# What a tree says about its sources

The nodes of a tree determine the record type of a source and the statement whose records
it reads. The vertex of a declared source agrees with both.
-/

namespace QueryGraph

/-- A source reads records of a type that belong to a statement. -/
inductive Describes
    (schema : Schema)
    (tree : Tree) : NodeId -> String -> NodeId -> Prop
  | root
      {id : NodeId}
      {body : Source}
      {recordType : String}
      (found : tree.node? id = some (.source body))
      (isRoot : body.kind = .root recordType) :
      Describes schema tree id recordType body.statement
  | join
      {id parent statement : NodeId}
      {body : Source}
      {field type target : String}
      {direction : JoinDirection}
      {mode : JoinMode}
      {on : Option NodeId}
      (found : tree.node? id = some (.source body))
      (isJoin : body.kind = .join parent field direction mode on)
      (above : Describes schema tree parent type statement)
      (leads : schema.relationTarget type field = .ok target) :
      Describes schema tree id target statement
  | correlated
      {id outer statement : NodeId}
      {body : Source}
      {type : String}
      (found : tree.node? id = some (.source body))
      (isCorrelated : body.kind = .correlated outer)
      (above : Describes schema tree outer type statement) :
      Describes schema tree id type statement

namespace Describes

variable {schema : Schema} {tree : Tree} {id : NodeId} {type : String} {statement : NodeId}

/-- What a description says, by the kind of the source. -/
theorem of_source
    {body : Source}
    (described : Describes schema tree id type statement)
    (found : tree.node? id = some (.source body)) :
    match body.kind with
    | .root recordType => type = recordType ∧ statement = body.statement
    | .join parent field _ _ _ => ∃ parentType,
        Describes schema tree parent parentType statement ∧
          schema.relationTarget parentType field = .ok type
    | .correlated outer => Describes schema tree outer type statement := by
  cases described with
  | root again isRoot =>
      rw [found] at again
      cases again
      rw [isRoot]
      exact ⟨rfl, rfl⟩
  | join again isJoin above leads =>
      rw [found] at again
      cases again
      rw [isJoin]
      exact ⟨_, above, leads⟩
  | correlated again isCorrelated above =>
      rw [found] at again
      cases again
      rw [isCorrelated]
      exact above

/-- What is described is a source. -/
theorem exists_source
    (described : Describes schema tree id type statement) :
    ∃ body, tree.node? id = some (.source body) := by
  induction described with
  | root found _ => exact ⟨_, found⟩
  | join found _ _ _ _ => exact ⟨_, found⟩
  | correlated found _ _ _ => exact ⟨_, found⟩

/-- A described join hangs off a described source of the same statement. -/
theorem of_join
    {parent : NodeId}
    {body : Source}
    {field : String}
    {direction : JoinDirection}
    {mode : JoinMode}
    {on : Option NodeId}
    (described : Describes schema tree id type statement)
    (found : tree.node? id = some (.source body))
    (isJoin : body.kind = .join parent field direction mode on) :
    ∃ parentType, Describes schema tree parent parentType statement ∧
      schema.relationTarget parentType field = .ok type := by
  have said := described.of_source found
  rw [isJoin] at said
  exact said

/-- A source has one type and belongs to one statement. -/
theorem unique
    {otherType : String}
    {otherStatement : NodeId}
    (first : Describes schema tree id type statement)
    (second : Describes schema tree id otherType otherStatement) :
    type = otherType ∧ statement = otherStatement := by
  induction first generalizing otherType otherStatement with
  | root found isRoot =>
      have said := second.of_source found
      rw [isRoot] at said
      exact ⟨said.1.symm, said.2.symm⟩
  | join found isJoin above leads inductionHypothesis =>
      obtain ⟨parentType, aboveAgain, leadsAgain⟩ := second.of_join found isJoin
      obtain ⟨rfl, rfl⟩ := inductionHypothesis aboveAgain
      rw [leads] at leadsAgain
      cases leadsAgain
      exact ⟨rfl, rfl⟩
  | correlated found isCorrelated above inductionHypothesis =>
      have said := second.of_source found
      rw [isCorrelated] at said
      exact inductionHypothesis said

/-- What a source finally stands for has its type and belongs to its statement. -/
theorem of_resolveFrom
    {outer : NodeId}
    {fuel : Nat}
    (resolved : tree.resolveFrom fuel id = .ok outer)
    (described : Describes schema tree outer type statement) :
    Describes schema tree id type statement := by
  induction fuel generalizing id with
  | zero => cases resolved
  | succ fuel inductionHypothesis =>
      unfold Tree.resolveFrom at resolved
      cases sourceFound : tree.source id with
      | error error =>
          rw [sourceFound] at resolved
          cases resolved
      | ok body =>
          rw [sourceFound] at resolved
          cases kind : body.kind with
          | root recordType =>
              simp only [kind] at resolved
              cases resolved
              exact described
          | join parent field direction mode on =>
              simp only [kind] at resolved
              cases resolved
              exact described
          | correlated next =>
              simp only [kind] at resolved
              exact .correlated (Tree.source_eq_ok.mp sourceFound) kind
                (inductionHypothesis resolved)

theorem isSource
    (described : Describes schema tree id type statement) :
    ∃ body, tree.node? id = some (.source body) := by
  cases described with
  | root found => exact ⟨_, found⟩
  | join found => exact ⟨_, found⟩
  | correlated found => exact ⟨_, found⟩

/-- A source that stands for no other one belongs to its own statement. -/
theorem statement_eq
    {body : Source}
    (placed : tree.Placed)
    (described : Describes schema tree id type statement)
    (found : tree.node? id = some (.source body))
    (original : body.isCorrelated = false) :
    body.statement = statement := by
  induction described generalizing body with
  | root again isRoot =>
      rw [found] at again
      cases again
      rfl
  | join again isJoin above leads inductionHypothesis =>
      rw [found] at again
      cases again
      have places := (placed _ _ found).1
      rw [isJoin] at places
      obtain ⟨-, aboveBody, aboveFound, aboveOriginal, sameStatement, -⟩ := places
      rw [← sameStatement]
      exact inductionHypothesis aboveFound aboveOriginal
  | correlated again isCorrelated above inductionHypothesis =>
      rw [found] at again
      cases again
      simp [Source.isCorrelated, isCorrelated] at original

/-- A described source stands for a root or a join of the described statement. -/
theorem resolveFrom
    {fuel : Nat}
    (placed : tree.Placed)
    (described : Describes schema tree id type statement)
    (enough : id.index < fuel) :
    ∃ outer source, tree.resolveFrom fuel id = .ok outer ∧
      tree.node? outer = some (.source source) ∧ source.statement = statement := by
  induction described generalizing fuel with
  | @root id body recordType found isRoot =>
      obtain ⟨fuel, rfl⟩ : ∃ rest, fuel = rest + 1 := ⟨fuel - 1, by omega⟩
      refine ⟨id, body, ?_, found, rfl⟩
      rw [Tree.resolveFrom, Tree.source_eq_ok.mpr found]
      simp only [isRoot]
  | @join id parent statement body field type target direction mode on found isJoin above leads _ =>
      obtain ⟨fuel, rfl⟩ : ∃ rest, fuel = rest + 1 := ⟨fuel - 1, by omega⟩
      have original : body.isCorrelated = false := by simp [Source.isCorrelated, isJoin]
      have described : Describes schema tree id target statement := .join found isJoin above leads
      refine ⟨id, body, ?_, found, described.statement_eq placed found original⟩
      rw [Tree.resolveFrom, Tree.source_eq_ok.mpr found]
      simp only [isJoin]
  | @correlated id outer statement body type found isCorrelated above inductionHypothesis =>
      obtain ⟨fuel, rfl⟩ : ∃ rest, fuel = rest + 1 := ⟨fuel - 1, by omega⟩
      have places := (placed id _ found).1
      rw [isCorrelated] at places
      have older := places.1
      obtain ⟨last, source, resolved, rest⟩ :=
        inductionHypothesis (show outer.index < fuel by omega)
      refine ⟨last, source, ?_, rest⟩
      rw [Tree.resolveFrom, Tree.source_eq_ok.mpr found]
      simp only [isCorrelated]
      exact resolved

theorem resolveCorrelation
    (placed : tree.Placed)
    (described : Describes schema tree id type statement) :
    ∃ outer source, tree.resolveCorrelation id = .ok outer ∧
      tree.node? outer = some (.source source) ∧ source.statement = statement := by
  obtain ⟨body, found⟩ := described.isSource
  have below := Tree.lt_size_of_node? found
  exact described.resolveFrom placed (by omega)

end Describes

/-- The graph is coherent, and the vertex of every declared source has the type and the
statement that the tree says. -/
structure GraphState.Sound
    (state : GraphState)
    (schema : Schema)
    (tree : Tree) : Prop where
  coherent : state.graph.Coherent schema
  described : ∀ {id vertex}, state.declared.find? id = some vertex ->
    ∃ found, state.graph.vertex? vertex = some found ∧
      Describes schema tree id found.recordType found.statement

namespace GraphState.Sound

variable {schema : Schema} {tree : Tree} {state : GraphState}

/-- A grown coherent graph goes on agreeing with the declarations. -/
theorem of_grows
    {graph : JoinGraph}
    (sound : state.Sound schema tree)
    (grows : state.graph.Grows graph)
    (coherent : graph.Coherent schema) :
    GraphState.Sound { state with graph := graph } schema tree where
  coherent := coherent
  described := by
    intro id vertex declared
    obtain ⟨found, present, described⟩ := sound.described declared
    obtain ⟨later, laterPresent, type, -, statement⟩ := grows vertex found present
    rw [← type, ← statement] at described
    exact ⟨later, laterPresent, described⟩

/-- A source may be declared as a vertex that agrees with what the tree says. -/
theorem declare
    {id : NodeId}
    {vertex : VertexId}
    {found : Vertex}
    (sound : state.Sound schema tree)
    (present : state.graph.vertex? vertex = some found)
    (described : Describes schema tree id found.recordType found.statement) :
    GraphState.Sound { state with declared := state.declared.insert id vertex } schema tree where
  coherent := sound.coherent
  described := by
    intro other otherVertex declared
    rw [DeclarationMap.find?_insert] at declared
    by_cases same : other = id
    · rw [if_pos same] at declared
      cases declared
      rw [same]
      exact ⟨found, present, described⟩
    · rw [if_neg same] at declared
      exact sound.described declared

end GraphState.Sound

namespace Graphing

variable {schema : Schema} {tree : Tree} {before after : GraphState}

/-- Joins built below a described vertex are described. -/
theorem sound_buildJoins
    {parent : VertexId}
    {joins : List SourceTree}
    {owner : NodeId}
    {above : Vertex}
    (placed : tree.Placed)
    (sound : before.Sound schema tree)
    (parentFound : before.graph.vertex? parent = some above)
    (parentDescribed : Describes schema tree owner above.recordType above.statement)
    (joinsRead : ∀ join ∈ joins, join.ReadFrom tree ∧
      ∃ statement, tree.JoinOf owner statement join.id)
    (done : buildJoins schema parent joins before = .ok () after) :
    before.graph.Grows after.graph ∧ after.Sound schema tree := by
  induction parent, joins using buildJoins.induct generalizing before after owner above with
  | case1 parent =>
      rw [buildJoins] at done
      cases done
      exact ⟨.refl _, sound⟩
  | case2 parent node source fetches joins rest _ _ _ _ _ isJoin joinsHypothesis restHypothesis =>
      obtain ⟨_, field, direction, mode, on, target, resolution, graph, below, kind, leads,
        resolved, inner, last⟩ := buildJoins_cons_eq_ok.mp done
      obtain ⟨read, statement, body, _, _, _, _, present, -, bodyKind⟩ :=
        joinsRead _ List.mem_cons_self
      obtain ⟨sourceFound, -, innerRead, -⟩ := SourceTree.readFrom_mk read
      change tree.node? node = _ at present
      rw [sourceFound] at present
      cases present
      rw [kind] at bodyKind
      cases bodyKind
      have leads : schema.relationTarget above.recordType field = .ok target := by
        unfold typeOf at leads
        rwa [parentFound] at leads
      obtain ⟨grows, coherent, vertex, vertexFound, type, -, sameStatement⟩ :=
        JoinGraph.resolve_spec parentFound sound.coherent leads resolved
      have described : Describes schema tree node vertex.recordType vertex.statement := by
        rw [type, sameStatement]
        exact .join sourceFound kind parentDescribed leads
      have soundDeclared := (sound.of_grows grows coherent).declare vertexFound described
      have placesNode := placed node _ sourceFound
      obtain ⟨growsInner, soundInner⟩ := joinsHypothesis resolution soundDeclared vertexFound
        described (fun join member => ⟨(innerRead join member).1, source.statement,
          placesNode.2.2 join.id (innerRead join member).2⟩) inner
      obtain ⟨later, laterFound, laterType, -, laterStatement⟩ :=
        (grows.trans growsInner) parent above parentFound
      rw [← laterType, ← laterStatement] at parentDescribed
      obtain ⟨growsLast, soundLast⟩ := restHypothesis soundInner laterFound parentDescribed
        (fun join member => joinsRead join (List.mem_cons_of_mem _ member)) last
      exact ⟨(grows.trans growsInner).trans growsLast, soundLast⟩
  | case3 parent node source fetches joins rest notJoin =>
      obtain ⟨owner, field, direction, mode, on, _, _, _, _, isJoin, -⟩ :=
        buildJoins_cons_eq_ok.mp done
      exact absurd isJoin (notJoin owner field direction mode on)

/-- A root that is built is described, and so is everything joined to it. -/
theorem sound_buildRoot
    {vertex : VertexId}
    {source : SourceTree}
    (placed : tree.Placed)
    (sound : before.Sound schema tree)
    (read : source.ReadFrom tree)
    (done : buildRoot schema source before = .ok vertex after) :
    before.graph.Grows after.graph ∧ after.Sound schema tree := by
  obtain ⟨id, body, fetches, joins⟩ := source
  obtain ⟨recordType, type, isRoot, -, rfl, inner⟩ := buildRoot_eq_ok.mp done
  obtain ⟨sourceFound, -, joinsRead, -⟩ := SourceTree.readFrom_mk read
  have grows := JoinGraph.grows_addRoot before.graph
    (.root recordType body.aliasHint body.statement)
  have coherent : (before.graph.addRoot
      (.root recordType body.aliasHint body.statement)).2.Coherent schema :=
    JoinGraph.coherent_addRoot sound.coherent rfl
  have vertexFound : (before.graph.addRoot
      (.root recordType body.aliasHint body.statement)).2.vertex? ⟨before.graph.size⟩ =
        some (.root recordType body.aliasHint body.statement) := by
    rw [JoinGraph.vertex?_addRoot, if_pos rfl]
  have described : Describes schema tree id recordType body.statement :=
    .root sourceFound isRoot
  have soundDeclared := (sound.of_grows grows coherent).declare vertexFound described
  have placesRoot := placed id _ sourceFound
  obtain ⟨growsInner, soundInner⟩ := sound_buildJoins placed soundDeclared vertexFound described
    (fun join member => ⟨(joinsRead join member).1, body.statement,
      placesRoot.2.2 join.id (joinsRead join member).2⟩) inner
  exact ⟨grows.trans growsInner, soundInner⟩

end Graphing
end QueryGraph
