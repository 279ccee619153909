import QueryGraph.Proofs.Graph.Fetching

/-!
# What becomes of a vertex

Whatever is asked of a join graph, a vertex stays where it is, its marks are kept, its edge only
becomes stricter, and its children are listed in the order in which they came. A graph that began
with roots alone is used upwards, and what is fetched is used and explicit up to its root.
-/

namespace QueryGraph

open Operation (finalState)

/-- What may become of a vertex. -/
structure Vertex.Evolves (before after : Vertex) : Prop where
  recordType : after.recordType = before.recordType
  field : after.field = before.field
  parent : after.parent = before.parent
  statement : after.statement = before.statement
  on : after.on = before.on
  used : before.used = true -> after.used = true
  fetched : before.fetched = true -> after.fetched = true
  explicit : before.explicit = true -> after.explicit = true
  direction : after.direction = before.direction ∨ after.direction = .inner
  mode : after.mode = before.mode ∨
    before.mode.isRequired = false ∧ after.mode = before.mode.toRequired
  aliasHint : ∀ {name}, before.aliasHint = some name -> after.aliasHint = some name
  children : before.children <+: after.children

namespace Vertex.Evolves

theorem refl (vertex : Vertex) : vertex.Evolves vertex where
  recordType := rfl
  field := rfl
  parent := rfl
  statement := rfl
  on := rfl
  used := id
  fetched := id
  explicit := id
  direction := Or.inl rfl
  mode := Or.inl rfl
  aliasHint := id
  children := List.prefix_rfl

theorem trans
    {first second third : Vertex}
    (earlier : first.Evolves second)
    (later : second.Evolves third) :
    first.Evolves third where
  recordType := later.recordType.trans earlier.recordType
  field := later.field.trans earlier.field
  parent := later.parent.trans earlier.parent
  statement := later.statement.trans earlier.statement
  on := later.on.trans earlier.on
  used marked := later.used (earlier.used marked)
  fetched marked := later.fetched (earlier.fetched marked)
  explicit marked := later.explicit (earlier.explicit marked)
  direction := by
    rcases later.direction with same | inner
    · rw [same]
      exact earlier.direction
    · exact Or.inr inner
  mode := by
    rcases later.mode with same | ⟨optional, required⟩
    · rw [same]
      exact earlier.mode
    · rcases earlier.mode with same | ⟨-, contrary⟩
      · rw [same] at optional required
        exact Or.inr ⟨optional, required⟩
      · rw [contrary, JoinMode.isRequired_toRequired] at optional
        cases optional
  aliasHint named := later.aliasHint (earlier.aliasHint named)
  children := earlier.children.trans later.children

/-- A vertex may get marks and further children. -/
theorem of_edge
    {before after : Vertex}
    (edge : after.edge = before.edge)
    (used : before.used = true -> after.used = true)
    (fetched : before.fetched = true -> after.fetched = true)
    (explicit : before.explicit = true -> after.explicit = true)
    (children : before.children <+: after.children) :
    before.Evolves after := by
  simp only [Vertex.edge, Vertex.mk.injEq] at edge
  obtain ⟨recordType, field, direction, mode, -, -, -, on, aliasHint, parent, -, statement, -⟩ :=
    edge
  exact {
    recordType := recordType
    field := field
    parent := parent
    statement := statement
    on := on
    used := used
    fetched := fetched
    explicit := explicit
    direction := Or.inl direction
    mode := Or.inl mode
    aliasHint := fun {name} suggested => aliasHint.trans suggested
    children := children }

end Vertex.Evolves

theorem JoinDirection.merge_eq_or (existing requested : JoinDirection) :
    existing.merge requested = existing ∨ existing.merge requested = .inner := by
  unfold merge
  split
  · exact Or.inl rfl
  · exact Or.inr rfl

theorem Vertex.evolves_merge
    (vertex : Vertex)
    (direction : JoinDirection) :
    vertex.Evolves { vertex with direction := vertex.direction.merge direction } :=
  { Evolves.refl vertex with direction := JoinDirection.merge_eq_or _ _ }

/-- A request that may share a vertex makes its edge stricter at most. -/
theorem Vertex.evolves_mergeRequest
    {vertex : Vertex}
    {request : JoinRequest}
    (granted : vertex.mergeFault? request = none) :
    vertex.Evolves (vertex.mergeRequest request) where
  recordType := rfl
  field := rfl
  parent := rfl
  statement := rfl
  on := rfl
  used := id
  fetched := id
  explicit marked := by
    unfold mergeRequest
    simp [marked]
  direction := JoinDirection.merge_eq_or _ _
  mode := by
    unfold mergeRequest
    simp only
    split
    · cases vertex.mode with
      | optionallyMergeExisting => exact Or.inr ⟨rfl, rfl⟩
      | requiredToMergeExisting => exact Or.inl rfl
      | optionallyCreateNew => exact Or.inr ⟨rfl, rfl⟩
      | requiredToCreateNew => exact Or.inl rfl
    · exact Or.inl rfl
  aliasHint {name} suggested := by
    unfold mergeFault? at granted
    unfold mergeRequest
    simp only
    split at granted
    · cases granted
    · cases requested : request.aliasHint with
      | none => simpa using suggested
      | some other =>
          simp only [suggested, requested] at granted
          split at granted
          · next same => rw [same, Option.some_or]
          · cases granted
  children := List.prefix_rfl

namespace JoinGraph

/-- Every vertex of a graph is still there, and has become what it may. -/
def Evolves (before after : JoinGraph) : Prop :=
  ∀ id vertex, before.vertex? id = some vertex ->
    ∃ later, after.vertex? id = some later ∧ vertex.Evolves later

/-- A graph in which everything above a used vertex is used, and everything above a fetched one is
used and explicit. -/
structure Upright (graph : JoinGraph) : Prop where
  forest : graph.Forest
  used : ∀ {id above}, graph.Marked Vertex.used id -> graph.Under id above ->
    graph.Marked Vertex.used above
  fetched : ∀ {id above}, graph.Marked Vertex.fetched id -> graph.Under id above ->
    graph.Marked Vertex.used above ∧ graph.Marked Vertex.explicit above

variable {graph before after : JoinGraph} {id parent other : VertexId}

namespace Evolves

theorem refl (graph : JoinGraph) : graph.Evolves graph :=
  fun _ vertex found => ⟨vertex, found, .refl vertex⟩

theorem trans
    {first second third : JoinGraph}
    (earlier : first.Evolves second)
    (later : second.Evolves third) :
    first.Evolves third := by
  intro id vertex found
  obtain ⟨between, foundBetween, evolves⟩ := earlier id vertex found
  obtain ⟨last, foundLast, evolvesOn⟩ := later id between foundBetween
  exact ⟨last, foundLast, evolves.trans evolvesOn⟩

theorem lt_size
    (evolves : before.Evolves after)
    (present : id.index < before.size) :
    id.index < after.size := by
  obtain ⟨vertex, found⟩ := vertex?_of_lt present
  obtain ⟨later, foundLater, -⟩ := evolves id vertex found
  exact lt_size_of_vertex? foundLater

theorem hangsOff
    (evolves : before.Evolves after)
    (hangs : before.HangsOff id parent) :
    after.HangsOff id parent := by
  obtain ⟨vertex, found, isParent⟩ := hangs
  obtain ⟨later, foundLater, kept⟩ := evolves id vertex found
  exact ⟨later, foundLater, kept.parent.trans isParent⟩

end Evolves

/-! ## Strokes -/

/-- The changes that everything asked of a graph consists of. -/
inductive Stroke (before : JoinGraph) : JoinGraph -> Prop
  /-- A root is added. -/
  | root
      (recordType : String)
      (aliasHint : Option String)
      (statement : NodeId) :
      Stroke before (before.addRoot (Vertex.root recordType aliasHint statement)).2
  /-- A vertex without marks is added below another one. -/
  | attach
      {parent : VertexId}
      {vertex : Vertex}
      (older : parent.index < before.size)
      (childless : vertex.children = [])
      (unused : vertex.used = false)
      (unfetched : vertex.fetched = false) :
      Stroke before (before.attach parent vertex).2
  /-- The edge of a vertex becomes stricter. -/
  | tighten
      {id : VertexId}
      {vertex : Vertex}
      {change : Vertex -> Vertex}
      (found : before.vertex? id = some vertex)
      (evolves : vertex.Evolves (change vertex))
      (children : (change vertex).children = vertex.children)
      (used : (change vertex).used = vertex.used)
      (fetched : (change vertex).fetched = vertex.fetched) :
      Stroke before (before.modify id change)
  /-- A vertex is used. -/
  | use
      {id : VertexId}
      (present : id.index < before.size) :
      Stroke before (before.setUsed id)
  /-- A vertex is fetched. -/
  | load
      {id : VertexId}
      (present : id.index < before.size) :
      Stroke before (before.setFetched id)

/-! ## What a stroke keeps -/

theorem Stroke.evolves (stroke : before.Stroke after) : before.Evolves after := by
  intro id vertex found
  have present := lt_size_of_vertex? found
  have marks {mark : Bool} : mark = true -> mark = true := fun marked => marked
  cases stroke with
  | root recordType aliasHint statement =>
      refine ⟨vertex, ?_, .refl vertex⟩
      rw [vertex?_addRoot, if_neg (Nat.ne_of_lt present), found]
  | @attach parent added older =>
      rw [vertex?_attach _ _ _ _ older, if_neg (Nat.ne_of_lt present), found]
      split
      · exact ⟨_, rfl, .of_edge rfl marks marks marks (List.prefix_append _ _)⟩
      · exact ⟨vertex, rfl, .refl vertex⟩
  | @tighten place other change otherFound evolves =>
      rw [vertex?_modify_of_found otherFound]
      split
      · next here =>
          rw [here, otherFound] at found
          cases found
          exact ⟨_, rfl, evolves⟩
      · exact ⟨vertex, found, .refl vertex⟩
  | use =>
      rw [vertex?_setUsed, found]
      split
      · exact ⟨_, rfl, .of_edge rfl (fun _ => rfl) marks marks List.prefix_rfl⟩
      · exact ⟨vertex, rfl, .refl vertex⟩
  | @load place =>
      have kept : vertex.fetched = true -> (vertex.fetched || decide (id = place)) = true :=
        fun fetched => by rw [fetched, Bool.true_or]
      rw [vertex?_setFetched, found]
      split
      · exact ⟨_, rfl, .of_edge rfl (fun _ => rfl) kept (fun _ => rfl) List.prefix_rfl⟩
      · exact ⟨_, rfl, .of_edge rfl marks kept marks List.prefix_rfl⟩

section Attach

variable {vertex : Vertex} (older : parent.index < before.size)

include older

/-- Only the new vertex comes to hang off another one. -/
theorem hangsOff_attach
    {child above : VertexId} :
    (before.attach parent vertex).2.HangsOff child above ↔
      before.HangsOff child above ∨ child = ⟨before.size⟩ ∧ above = parent := by
  simp only [hangsOff_iff, edge?_attach older]
  by_cases new : child = ⟨before.size⟩
  · have missing : before.edge? ⟨before.size⟩ = none := edge?_eq_none.mpr (Nat.le_refl _)
    simp [new, missing, Vertex.edge, eq_comm]
  · simp [new]

theorem Forest.attach
    (forest : before.Forest)
    (childless : vertex.children = []) :
    (before.attach parent vertex).2.Forest where
  older hangs := by
    rcases (hangsOff_attach older).mp hangs with old | ⟨rfl, rfl⟩
    · exact forest.older old
    · exact older
  listed := by
    intro child above
    rw [mem_children_attach older childless, hangsOff_attach older, forest.listed]

end Attach

section Tighten

variable {vertex : Vertex} {change : Vertex -> Vertex}
  (found : before.vertex? id = some vertex)

include found

theorem hangsOff_modify
    {child above : VertexId}
    (kept : (change vertex).parent = vertex.parent) :
    (before.modify id change).HangsOff child above ↔ before.HangsOff child above := by
  unfold HangsOff
  simp only [vertex?_modify_of_found found]
  by_cases here : child = id
  · simp [here, found, kept]
  · simp [here]

theorem Forest.modify
    (forest : before.Forest)
    (parent : (change vertex).parent = vertex.parent)
    (children : (change vertex).children = vertex.children) :
    (before.modify id change).Forest where
  older hangs := forest.older ((hangsOff_modify found parent).mp hangs)
  listed := by
    intro child above
    rw [mem_children_modify found children, hangsOff_modify found parent, forest.listed]

theorem marked_modify_of_eq
    {mark : Vertex -> Bool}
    (kept : mark (change vertex) = mark vertex) :
    (before.modify id change).Marked mark other ↔ before.Marked mark other := by
  have same : mark (change vertex) = (mark vertex || false) := by rw [kept, Bool.or_false]
  rw [marked_modify found same]
  simp

end Tighten

/-- What is above a vertex stays the same as long as nothing older comes to hang off another
vertex. -/
theorem Under.of_lt
    {above : VertexId}
    (under : after.Under id above)
    (forest : before.Forest)
    (present : id.index < before.size)
    (kept : ∀ {child above}, child.index < before.size -> after.HangsOff child above ->
      before.HangsOff child above) :
    before.Under id above := by
  induction under using Relation.ReflTransGen.head_induction_on with
  | refl => exact .refl
  | head hangs _ inductionHypothesis =>
      have old := kept present hangs
      exact .head old (inductionHypothesis (Nat.lt_trans (forest.older old) present))

theorem Marked.lt_size
    {mark : Vertex -> Bool}
    (marked : graph.Marked mark id) :
    id.index < graph.size := by
  obtain ⟨vertex, found, -⟩ := marked
  exact lt_size_of_vertex? found

theorem Evolves.marked
    {mark : Vertex -> Bool}
    (evolves : before.Evolves after)
    (kept : ∀ {earlier later : Vertex}, earlier.Evolves later -> mark earlier = true ->
      mark later = true)
    (marked : before.Marked mark id) :
    after.Marked mark id := by
  obtain ⟨vertex, found, isMarked⟩ := marked
  obtain ⟨later, foundLater, same⟩ := evolves id vertex found
  exact ⟨later, foundLater, kept same isMarked⟩

namespace Upright

/-- A graph stays upright when nothing older moves, and what comes to be used is used up to its
root. -/
theorem evolve
    (upright : before.Upright)
    (evolves : before.Evolves after)
    (forest : after.Forest)
    (kept : ∀ {child above}, child.index < before.size -> after.HangsOff child above ->
      before.HangsOff child above)
    (used : ∀ {id above}, after.Marked Vertex.used id -> after.Under id above ->
      before.Marked Vertex.used id ∨ after.Marked Vertex.used above)
    (fetched : ∀ {id above}, after.Marked Vertex.fetched id -> after.Under id above ->
      before.Marked Vertex.fetched id ∨
        after.Marked Vertex.used above ∧ after.Marked Vertex.explicit above) :
    after.Upright where
  forest := forest
  used {id above} marked under := by
    rcases used marked under with old | done
    · have underBefore := under.of_lt upright.forest old.lt_size kept
      exact evolves.marked Vertex.Evolves.used (upright.used old underBefore)
    · exact done
  fetched {id above} marked under := by
    rcases fetched marked under with old | done
    · have underBefore := under.of_lt upright.forest old.lt_size kept
      obtain ⟨isUsed, isExplicit⟩ := upright.fetched old underBefore
      exact ⟨evolves.marked Vertex.Evolves.used isUsed,
        evolves.marked Vertex.Evolves.explicit isExplicit⟩
    · exact done

theorem stroke
    (upright : before.Upright)
    (stroke : before.Stroke after) :
    after.Upright := by
  have evolves := stroke.evolves
  have grown := upright.forest
  cases stroke with
  | root recordType aliasHint statement =>
      refine upright.evolve evolves (grown.addRoot rfl rfl)
        (fun _ hangs => (hangsOff_addRoot rfl).mp hangs) (fun {id above} marked under => ?_)
        fun marked under => Or.inl ?_
      · rcases marked_addRoot.mp marked with old | ⟨-, rfl⟩
        · exact Or.inl old
        · rw [(under_addRoot rfl).mp under]
          exact Or.inr marked
      · rcases marked_addRoot.mp marked with old | ⟨contrary, -⟩
        · exact old
        · cases contrary
  | @attach parent vertex older childless unused unfetched =>
      refine upright.evolve evolves (grown.attach older childless) (fun present hangs => ?_)
        (fun marked _ => Or.inl ?_) fun marked _ => Or.inl ?_
      · rcases (hangsOff_attach older).mp hangs with old | ⟨rfl, -⟩
        · exact old
        · exact absurd present (Nat.lt_irrefl _)
      · rcases (marked_attach older fun _ _ => rfl).mp marked with old | ⟨contrary, -⟩
        · exact old
        · rw [unused] at contrary
          cases contrary
      · rcases (marked_attach older fun _ _ => rfl).mp marked with old | ⟨contrary, -⟩
        · exact old
        · rw [unfetched] at contrary
          cases contrary
  | @tighten place vertex change found keeps children used fetched =>
      have same : ∀ {child above}, (before.modify place change).HangsOff child above ↔
          before.HangsOff child above := hangsOff_modify found keeps.parent
      refine upright.evolve evolves (grown.modify found keeps.parent children)
        (fun _ hangs => same.mp hangs) (fun marked _ => Or.inl ?_) fun marked _ => Or.inl ?_
      · exact (marked_modify_of_eq found used).mp marked
      · exact (marked_modify_of_eq found fetched).mp marked
  | @use place present =>
      have same : (before.setUsed place).HangsOff = before.HangsOff :=
        hangsOff_eq (edge?_setUsed before place)
      refine upright.evolve evolves
        (grown.of_edges (edge?_setUsed before place) (children_setUsed before place))
        (fun _ hangs => same ▸ hangs) (fun {id above} marked under => ?_)
        fun marked _ => Or.inl ?_
      · rcases (marked_used_setUsed grown present).mp marked with old | above
        · exact Or.inl old
        · refine Or.inr ((marked_used_setUsed grown present).mpr (Or.inr ?_))
          unfold Under at under
          rw [same] at under
          exact above.trans under
      · exact (marked_setUsed before place _ fun _ => rfl).mp marked
  | @load place present =>
      have same : (before.setFetched place).HangsOff = before.HangsOff :=
        hangsOff_eq (edge?_setFetched before place)
      have isUsed : ∀ {other}, (before.setFetched place).Marked Vertex.used other ↔
          before.Marked Vertex.used other ∨ before.Under place other :=
        marked_setFetched grown present (fun _ _ => rfl) fun _ => rfl
      have isExplicit : ∀ {other}, (before.setFetched place).Marked Vertex.explicit other ↔
          before.Marked Vertex.explicit other ∨ before.Under place other :=
        marked_setFetched grown present (fun _ _ => rfl) fun _ => rfl
      refine upright.evolve evolves
        (grown.of_edges (edge?_setFetched before place) (children_setFetched before place))
        (fun _ hangs => same ▸ hangs) (fun {id above} marked under => ?_)
        fun {id above} marked under => ?_
      · unfold Under at under
        rw [same] at under
        rcases isUsed.mp marked with old | below
        · exact Or.inl old
        · exact Or.inr (isUsed.mpr (Or.inr (below.trans under)))
      · unfold Under at under
        rw [same] at under
        rcases (marked_fetched_setFetched present).mp marked with old | rfl
        · exact Or.inl old
        · exact Or.inr ⟨isUsed.mpr (Or.inr under), isExplicit.mpr (Or.inr under)⟩

end Upright

/-! ## What strokes make up -/

/-- Strokes one after the other. -/
def Strokes : JoinGraph -> JoinGraph -> Prop := Relation.ReflTransGen Stroke

theorem Strokes.evolves (strokes : before.Strokes after) : before.Evolves after := by
  induction strokes with
  | refl => exact .refl before
  | tail _ stroke inductionHypothesis => exact inductionHypothesis.trans stroke.evolves

theorem Upright.strokes
    (upright : before.Upright)
    (strokes : before.Strokes after) :
    after.Upright := by
  induction strokes with
  | refl => exact upright
  | tail _ stroke inductionHypothesis => exact inductionHypothesis.stroke stroke

theorem strokes_create
    (older : parent.index < before.size)
    (request : JoinRequest) :
    before.Strokes (before.create parent request).2 := by
  unfold create
  generalize ((before.vertex? parent).map Vertex.statement).getD ⟨0⟩ = statement
  have added : before.Stroke (before.attach parent (Vertex.ofRequest request statement)).2 :=
    .attach older rfl rfl rfl
  have present : (before.attach parent (Vertex.ofRequest request statement)).1.index <
      (before.attach parent (Vertex.ofRequest request statement)).2.size := by
    simp [attach, size, modify]
  simp only
  split
  · exact .tail (.single added) (.use present)
  · exact .single added

theorem strokes_merge
    {vertex : Vertex}
    {request : JoinRequest}
    (found : before.vertex? id = some vertex)
    (granted : vertex.mergeFault? request = none) :
    before.Strokes (before.merge id request) := by
  have merged : before.Stroke (before.modify id fun vertex => vertex.mergeRequest request) :=
    .tighten found (Vertex.evolves_mergeRequest granted) rfl rfl rfl
  unfold merge
  simp only
  split
  · refine .tail (.single merged) (.use ?_)
    rw [size_modify]
    exact lt_size_of_vertex? found
  · exact .single merged

/-- A request is answered by strokes, and a refused one by none. -/
theorem strokes_resolve
    (older : parent.index < before.size)
    (request : JoinRequest) :
    before.Strokes (finalState (resolve parent request before)) := by
  unfold resolve
  rw [Operation.bind_of_ok (Operation.get_apply before)]
  cases candidate : before.candidate? parent request with
  | none => exact strokes_create older request
  | some existing =>
      obtain ⟨-, vertex, -, -, found, -⟩ := candidate?_eq_some candidate
      simp only [found, Option.bind_some]
      cases granted : vertex.mergeFault? request with
      | some error => exact .refl
      | none => exact strokes_merge found granted

theorem strokes_fetchVertex
    (older : parent.index < before.size)
    (field : Field)
    (target : String)
    (direction : JoinDirection)
    (collection : CollectionFetch) :
    before.Strokes (before.fetchVertex parent field target direction collection).2 := by
  unfold fetchVertex
  simp only
  split
  · next existing reusable =>
      have fetchable := List.find?_some reusable
      cases found : before.vertex? existing with
      | none =>
          rw [found] at fetchable
          cases fetchable
      | some vertex => exact .single (.tighten found (vertex.evolves_merge direction) rfl rfl rfl)
  · exact .single (.attach older rfl rfl rfl)

end JoinGraph

namespace Graphing

variable {schema : Schema}

/-- Merging a fetch changes nothing, or it loads a vertex and merges what is fetched below that. -/
theorem finalState_mergeFetch
    {parent : VertexId}
    {id : NodeId}
    {name : String}
    {direction : JoinDirection}
    {collection : CollectionFetch}
    {nested : List FetchTree}
    {before : GraphState} :
    finalState (mergeFetch schema parent (.mk id name direction collection nested) before) =
        before ∨
      ∃ field target vertex graph,
        before.graph.fetchVertex parent field target direction collection = (vertex, graph) ∧
        finalState (mergeFetch schema parent (.mk id name direction collection nested) before) =
          finalState (mergeFetches schema vertex nested {
            graph := graph.setFetched vertex
            declared := before.declared.insert id vertex }) := by
  rw [mergeFetch]
  have typed : recordType parent before = .ok (typeOf before.graph parent) before := rfl
  rw [Operation.bind_of_ok typed]
  cases required : schema.requireField (typeOf before.graph parent) name with
  | error error => exact Or.inl rfl
  | ok field =>
      rw [Operation.bind_of_ok (require_eq_ok.mpr ⟨rfl, rfl⟩)]
      cases leads : field.target? with
      | none => exact Or.inl rfl
      | some target =>
          cases fetched : before.graph.fetchVertex parent field target direction collection with
          | mk vertex graph =>
              refine Or.inr ⟨field, target, vertex, graph, fetched, ?_⟩
              simp only
              rw [Operation.bind_of_ok (Operation.get_apply before), fetched]
              rfl

mutual

/-- A merged fetch is made up of strokes, also when it is refused somewhere. -/
theorem strokes_mergeFetch
    {parent : VertexId}
    (before : GraphState)
    (older : parent.index < before.graph.size) :
    (fetch : FetchTree) ->
      before.graph.Strokes (finalState (mergeFetch schema parent fetch before)).graph
  | .mk id name direction collection nested => by
      rcases finalState_mergeFetch with same | ⟨field, target, vertex, graph, fetched, same⟩
      · rw [same]
        exact .refl
      · have found := JoinGraph.strokes_fetchVertex older field target direction collection
        rw [fetched] at found
        have loaded : graph.Stroke (graph.setFetched vertex) :=
          .load (JoinGraph.lt_size_of_fetchVertex fetched)
        have present := loaded.evolves.lt_size (JoinGraph.lt_size_of_fetchVertex fetched)
        have below := strokes_mergeFetches
          { graph := graph.setFetched vertex, declared := before.declared.insert id vertex }
          present nested
        rw [same]
        exact (found.tail loaded).trans below

theorem strokes_mergeFetches
    {parent : VertexId}
    (before : GraphState)
    (older : parent.index < before.graph.size) :
    (fetches : List FetchTree) ->
      before.graph.Strokes (finalState (mergeFetches schema parent fetches before)).graph
  | [] => .refl
  | fetch :: fetches => by
      have first : before.graph.Strokes
          (finalState (mergeFetch schema parent fetch before)).graph :=
        strokes_mergeFetch before older fetch
      rw [mergeFetches, Operation.bind_apply]
      cases merged : mergeFetch schema parent fetch before with
      | error error state =>
          rw [merged] at first
          exact first
      | ok value state =>
          rw [merged] at first
          exact first.trans (strokes_mergeFetches state (first.evolves.lt_size older) fetches)

end

end Graphing

namespace JoinGraph

variable {graph before after : JoinGraph}

/-! ## What is asked of a graph -/

/-- Something is asked of a graph, and granted or refused. -/
inductive Alters (before : JoinGraph) : JoinGraph -> Prop
  | root
      (recordType : String)
      (aliasHint : Option String)
      (statement : NodeId) :
      Alters before (before.addRoot (Vertex.root recordType aliasHint statement)).2
  | request
      {parent : VertexId}
      (present : parent.index < before.size)
      (request : JoinRequest) :
      Alters before (finalState (resolve parent request before))
  | fetch
      {parent : VertexId}
      (present : parent.index < before.size)
      (schema : Schema)
      (declared : DeclarationMap)
      (fetch : FetchTree) :
      Alters before
        (finalState (Graphing.mergeFetch schema parent fetch ⟨before, declared⟩)).graph
  | use
      {id : VertexId}
      (present : id.index < before.size) :
      Alters before (before.setUsed id)
  | load
      {id : VertexId}
      (present : id.index < before.size) :
      Alters before (before.setFetched id)

/-- Things are asked of a graph one after the other. -/
def Runs : JoinGraph -> JoinGraph -> Prop := Relation.ReflTransGen Alters

theorem Alters.strokes (alters : before.Alters after) : before.Strokes after := by
  cases alters with
  | root recordType aliasHint statement => exact .single (.root recordType aliasHint statement)
  | request present request => exact strokes_resolve present request
  | fetch present schema declared fetch =>
      exact Graphing.strokes_mergeFetch ⟨before, declared⟩ present fetch
  | use present => exact .single (.use present)
  | load present => exact .single (.load present)

theorem Runs.strokes (runs : before.Runs after) : before.Strokes after := by
  induction runs with
  | refl => exact .refl
  | tail _ alters inductionHypothesis => exact inductionHypothesis.trans alters.strokes

/-- A history in which nothing is fetched consists of things that were asked of the graph. -/
theorem Steps.runs
    {history : List GraphEvent}
    (steps : before.Steps history after)
    (unfetched : ∀ event ∈ history, event.isFetch = false) :
    before.Runs after := by
  induction steps with
  | none => exact .refl
  | next earlier step inductionHypothesis =>
      refine (inductionHypothesis fun event member =>
        unfetched event (List.mem_cons_of_mem _ member)).tail ?_
      have notFetch := unfetched _ List.mem_cons_self
      cases step with
      | root recordType aliasHint statement => exact .root recordType aliasHint statement
      | @request contributor _ targetType _ _ older isRequest done =>
          have asked := Alters.request older (contributor.request targetType)
          rw [done] at asked
          exact asked
      | fetch => cases notFetch
      | reference present => exact .use present

/-- A graph that has nothing but roots. -/
def OnlyRoots (graph : JoinGraph) : Prop :=
  ∀ id vertex, graph.vertex? id = some vertex ->
    ∃ recordType aliasHint statement, vertex = Vertex.root recordType aliasHint statement

theorem onlyRoots_empty : OnlyRoots {} := by
  intro id vertex found
  cases found

theorem OnlyRoots.upright (roots : graph.OnlyRoots) : graph.Upright := by
  have free : ∀ {child above}, ¬ graph.HangsOff child above := by
    rintro child above ⟨vertex, found, hangs⟩
    obtain ⟨recordType, aliasHint, statement, rfl⟩ := roots child vertex found
    cases hangs
  refine ⟨⟨fun hangs => absurd hangs free, ?_⟩, ?_, ?_⟩
  · intro child above
    refine ⟨fun listed => ?_, fun hangs => absurd hangs free⟩
    obtain ⟨vertex, found, member⟩ := mem_children.mp listed
    obtain ⟨recordType, aliasHint, statement, rfl⟩ := roots above vertex found
    cases member
  · intro id above marked under
    rcases Relation.ReflTransGen.cases_head under with rfl | ⟨next, hangs, -⟩
    · exact marked
    · exact absurd hangs free
  · rintro id above ⟨vertex, found, fetched⟩ -
    obtain ⟨recordType, aliasHint, statement, rfl⟩ := roots id vertex found
    cases fetched

/-- Whatever is asked of a graph that began with roots alone, in whatever order, and whether it is
granted or refused: the graph is used upwards and fetched from used and explicit vertices, and
every vertex only becomes what it may. -/
theorem runs_upright_evolves
    {start earlier later : JoinGraph}
    (roots : start.OnlyRoots)
    (begun : start.Runs earlier)
    (continued : earlier.Runs later) :
    later.Upright ∧ earlier.Evolves later :=
  ⟨(roots.upright.strokes begun.strokes).strokes continued.strokes, continued.strokes.evolves⟩

/-- A graph with one root. -/
def crewRoot : JoinGraph := ⟨#[Vertex.root "Employee" none ⟨0⟩]⟩

theorem onlyRoots_crewRoot : crewRoot.OnlyRoots := by
  intro id vertex found
  obtain ⟨index⟩ := id
  cases index with
  | zero =>
      cases found
      exact ⟨_, _, _, rfl⟩
  | succ index => cases found

/-- The root with a joined team. -/
def crewJoined : JoinGraph :=
  finalState (resolve ⟨0⟩ { field := "team", targetType := "Team", direction := .left } crewRoot)

/-- A request with a condition cannot share the edge to the team. -/
def crewRefused : JoinGraph :=
  finalState (resolve ⟨0⟩ { field := "team", targetType := "Team", on := some ⟨5⟩ } crewJoined)

/-- A request from the other side shares it. -/
def crewShared : JoinGraph :=
  finalState (resolve ⟨0⟩
    { field := "team", targetType := "Team", mode := .requiredToMergeExisting } crewRefused)

/-- The edge to the team becomes an inner one that has to be kept, and the root stays explicit when
the team is fetched. -/
theorem crewShared_upright_evolves :
    crewRoot.OnlyRoots ∧ crewRoot.Runs crewJoined ∧
      crewJoined.Runs (crewShared.setFetched ⟨1⟩) ∧ (crewShared.setFetched ⟨1⟩).Upright ∧
      crewJoined.Evolves (crewShared.setFetched ⟨1⟩) := by
  have begun : crewRoot.Runs crewJoined := .single (.request (by decide) _)
  have refused : crewJoined.Alters crewRefused := .request (by decide) _
  have shared : crewRefused.Alters crewShared := .request (by decide) _
  have loaded : crewShared.Alters (crewShared.setFetched ⟨1⟩) := .load (by decide)
  have continued := ((Relation.ReflTransGen.single refused).tail shared).tail loaded
  exact ⟨onlyRoots_crewRoot, begun, continued,
    runs_upright_evolves onlyRoots_crewRoot begun continued⟩

end JoinGraph
end QueryGraph
