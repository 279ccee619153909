import QueryGraph.Proofs.Graph.Grant

/-!
# The history of a join graph

A join graph is the result of its history: roots are added, contributors are granted vertices,
and paths refer to vertices. What is known of a vertex in the end can be read off the history:
its edge says what its contributors say together, and its marks tell whether anything asked for
it, loads it, or needs it.
-/

namespace QueryGraph

/-- What happens to a vertex of a join graph. -/
inductive GraphEvent
  /-- The vertex is the root of a source. -/
  | root (id : VertexId)
  /-- The vertex is granted to a contributor below another vertex. -/
  | granted
      (contributor : Contributor)
      (parent id : VertexId)
  /-- A compiled path leads through the vertex. -/
  | reference (id : VertexId)
  deriving DecidableEq, Repr

namespace GraphEvent

/-- The vertex that it happens to. -/
def id : GraphEvent -> VertexId
  | .root id | .granted _ _ id | .reference id => id

/-- Whether it makes the vertex part of the result. -/
def uses : GraphEvent -> Bool
  | .granted contributor _ _ => contributor.keeps
  | .root _ | .reference _ => true

/-- Whether a source is declared that leads to the vertex. -/
def isDeclaration : GraphEvent -> Bool
  | .root _ => true
  | .granted contributor _ _ => contributor.isJoin
  | .reference _ => false

/-- Whether the vertex is fetched. -/
def isFetch : GraphEvent -> Bool
  | .granted contributor _ _ => contributor.isFetch
  | .root _ | .reference _ => false

end GraphEvent

/-- No edge leads to a vertex, so nothing is said of one. -/
structure Vertex.IsBare (vertex : Vertex) : Prop where
  parent : vertex.parent = none
  on : vertex.on = none
  shared : vertex.mode.isNew = false

theorem Vertex.not_isBare_of_parent
    {vertex : Vertex}
    {parent : VertexId}
    (hangs : vertex.parent = some parent) :
    ¬ vertex.IsBare := by
  intro bare
  rw [bare.parent] at hangs
  cases hangs

namespace JoinGraph

/-- One step in the history of a graph. -/
inductive Step (before : JoinGraph) : GraphEvent -> JoinGraph -> Prop
  | root
      (recordType : String)
      (aliasHint : Option String)
      (statement : NodeId) :
      Step before (.root ⟨before.size⟩)
        (before.addRoot (Vertex.root recordType aliasHint statement)).2
  | request
      {contributor : Contributor}
      {parent : VertexId}
      {targetType : String}
      {resolution : Resolution}
      {after : JoinGraph}
      (older : parent.index < before.size)
      (isRequest : contributor.isFetch = false)
      (done : resolve parent (contributor.request targetType) before = .ok resolution after) :
      Step before (.granted contributor parent resolution.id) after
  | fetch
      {fetch : NodeId}
      {declared : Fetch}
      {parent : VertexId}
      {field : Field}
      (target : String)
      (older : parent.index < before.size)
      (name : field.name = declared.field) :
      Step before
        (.granted (.fetch fetch declared) parent
          (before.fetchVertex parent field target declared.direction declared.collection).1)
        ((before.fetchVertex parent field target declared.direction
          declared.collection).2.setFetched
          (before.fetchVertex parent field target declared.direction declared.collection).1)
  | reference
      {id : VertexId}
      (present : id.index < before.size) :
      Step before (.reference id) (before.setUsed id)

/-- The history that leads from one graph to another, the last event first. -/
inductive Steps (before : JoinGraph) : List GraphEvent -> JoinGraph -> Prop
  | none : Steps before [] before
  | next
      {history : List GraphEvent}
      {event : GraphEvent}
      {between after : JoinGraph}
      (earlier : Steps before history between)
      (step : between.Step event after) :
      Steps before (event :: history) after

theorem Steps.single
    {before after : JoinGraph}
    {event : GraphEvent}
    (step : before.Step event after) :
    before.Steps [event] after :=
  .next .none step

theorem Steps.trans
    {before between after : JoinGraph}
    {earlier later : List GraphEvent}
    (first : before.Steps earlier between)
    (second : between.Steps later after) :
    before.Steps (later ++ earlier) after := by
  induction second with
  | none => exact first
  | next _ step inductionHypothesis => exact .next inductionHypothesis step

/-! ## What a step does -/

variable {before after : JoinGraph} {event : GraphEvent}

/-- Only the vertex of a granted contributor comes to hang off another one. -/
theorem Grants.hangsOff_of_lt
    {contributor : Contributor}
    {parent id child above : VertexId}
    (grants : before.Grants contributor parent id after)
    (older : child.index < before.size) :
    after.HangsOff child above ↔ before.HangsOff child above := by
  rw [grants.hangsOff]
  constructor
  · rintro (old | ⟨rfl, rfl⟩)
    · exact old
    · obtain ⟨edge, found⟩ := edge?_of_lt older
      exact hangsOff_iff.mpr ⟨edge, found, grants.edges.parent_of_edge? found⟩
  · exact Or.inl

/-- What an event does to the edges. -/
def Rearranges (before : JoinGraph) (event : GraphEvent) (after : JoinGraph) : Prop :=
  match event with
  | .root id => id = ⟨before.size⟩ ∧ ∃ edge, edge.IsBare ∧
      ∀ other, after.edge? other = if other = id then some edge else before.edge? other
  | .granted contributor parent id =>
      before.Seats contributor parent id after ∧
        ∀ {child above}, after.HangsOff child above ↔
          before.HangsOff child above ∨ child = id ∧ above = parent
  | .reference _ => ∀ other, after.edge? other = before.edge? other

/-- What a step does to a forest. -/
structure Effect
    (before : JoinGraph)
    (event : GraphEvent)
    (after : JoinGraph) : Prop where
  forest : after.Forest
  edges : before.Rearranges event after
  size_le : before.size ≤ after.size
  present : event.id.index < after.size
  hangsOff : ∀ {child above}, child.index < before.size ->
    (after.HangsOff child above ↔ before.HangsOff child above)
  used : ∀ {other}, after.Marked Vertex.used other ↔
    before.Marked Vertex.used other ∨ event.uses = true ∧ after.Under event.id other
  explicit : ∀ {other}, after.Marked Vertex.explicit other ↔
    before.Marked Vertex.explicit other ∨ event.isDeclaration = true ∧ other = event.id ∨
      event.isFetch = true ∧ after.Under event.id other
  fetched : ∀ {other}, after.Marked Vertex.fetched other ↔
    before.Marked Vertex.fetched other ∨ event.isFetch = true ∧ other = event.id

theorem Grants.effect
    {contributor : Contributor}
    {parent id : VertexId}
    (grants : before.Grants contributor parent id after) :
    before.Effect (.granted contributor parent id) after where
  forest := grants.forest
  edges := ⟨grants.edges, grants.hangsOff⟩
  size_le := grants.edges.size_le
  present := grants.edges.lt_size
  hangsOff older := grants.hangsOff_of_lt older
  used := grants.used
  explicit := grants.explicit
  fetched := grants.fetched

section AddRoot

variable {root : Vertex} {other : VertexId}

theorem edge?_addRoot :
    (before.addRoot root).2.edge? other =
      if other = ⟨before.size⟩ then some root.edge else before.edge? other := by
  unfold edge?
  rw [vertex?_addRoot]
  simp only [VertexId.index_eq_iff]
  split <;> rfl

theorem marked_addRoot
    {mark : Vertex -> Bool} :
    (before.addRoot root).2.Marked mark other ↔
      before.Marked mark other ∨ mark root = true ∧ other = ⟨before.size⟩ := by
  unfold Marked
  simp only [vertex?_addRoot, VertexId.index_eq_iff]
  by_cases new : other = ⟨before.size⟩
  · simp [new, vertex?_size]
  · simp [new]

/-- A root comes to hang off nothing. -/
theorem hangsOff_addRoot
    {child above : VertexId}
    (free : root.parent = none) :
    (before.addRoot root).2.HangsOff child above ↔ before.HangsOff child above := by
  unfold HangsOff
  simp only [vertex?_addRoot, VertexId.index_eq_iff]
  by_cases new : child = ⟨before.size⟩
  · simp [new, vertex?_size, free]
  · simp [new]

theorem under_addRoot
    (free : root.parent = none) :
    (before.addRoot root).2.Under ⟨before.size⟩ other ↔ other = ⟨before.size⟩ := by
  constructor
  · intro above
    rcases Relation.ReflTransGen.cases_head above with same | ⟨next, step, -⟩
    · exact same.symm
    · exact absurd ((hangsOff_addRoot free).mp step).lt_size (Nat.lt_irrefl _)
  · rintro rfl
    exact .refl

theorem Forest.addRoot
    (forest : before.Forest)
    (free : root.parent = none)
    (childless : root.children = []) :
    (before.addRoot root).2.Forest where
  older step := forest.older ((hangsOff_addRoot free).mp step)
  listed := by
    intro child above
    rw [hangsOff_addRoot free, ← forest.listed]
    simp only [mem_children, vertex?_addRoot, VertexId.index_eq_iff]
    by_cases new : above = ⟨before.size⟩
    · simp [new, vertex?_size, childless]
    · simp [new]

end AddRoot

theorem effect_addRoot
    (recordType : String)
    (aliasHint : Option String)
    (statement : NodeId)
    (forest : before.Forest) :
    before.Effect (.root ⟨before.size⟩)
      (before.addRoot (Vertex.root recordType aliasHint statement)).2 where
  forest := forest.addRoot rfl rfl
  edges := ⟨rfl, _, ⟨rfl, rfl, rfl⟩, fun _ => edge?_addRoot⟩
  size_le := by simp [addRoot, size]
  present := by simp [addRoot, size, GraphEvent.id]
  hangsOff _ := hangsOff_addRoot rfl
  used := by
    intro other
    rw [marked_addRoot]
    simp only [GraphEvent.uses, GraphEvent.id]
    rw [under_addRoot rfl]
    simp [Vertex.root]
  explicit := by
    intro other
    rw [marked_addRoot]
    simp [GraphEvent.isDeclaration, GraphEvent.isFetch, GraphEvent.id, Vertex.root]
  fetched := by
    intro other
    rw [marked_addRoot]
    simp [GraphEvent.isFetch, Vertex.root]

theorem effect_setUsed
    {id : VertexId}
    (forest : before.Forest)
    (present : id.index < before.size) :
    before.Effect (.reference id) (before.setUsed id) := by
  have hangs : (before.setUsed id).HangsOff = before.HangsOff := hangsOff_eq (edge?_setUsed before id)
  have size : (before.setUsed id).size = before.size := size_eq_of_edges (edge?_setUsed before id)
  exact {
    forest := forest.of_edges (edge?_setUsed before id) (children_setUsed before id)
    edges := edge?_setUsed before id
    size_le := Nat.le_of_eq size.symm
    present := by
      rw [size]
      exact present
    hangsOff := by
      intro child above _
      rw [hangs]
    used := by
      intro other
      rw [marked_used_setUsed forest present, Under, Under, hangs]
      simp [GraphEvent.uses, GraphEvent.id]
    explicit := by
      intro other
      rw [marked_setUsed before id other fun _ => rfl]
      simp [GraphEvent.isDeclaration, GraphEvent.isFetch]
    fetched := by
      intro other
      rw [marked_setUsed before id other fun _ => rfl]
      simp [GraphEvent.isFetch] }

theorem Step.effect
    (step : before.Step event after)
    (forest : before.Forest) :
    before.Effect event after := by
  cases step with
  | root recordType aliasHint statement => exact effect_addRoot recordType aliasHint statement forest
  | request older isRequest done => exact (grants_resolve forest older isRequest done).effect
  | fetch target older name => exact (grants_fetchVertex forest older name).effect
  | reference present => exact effect_setUsed forest present

theorem Steps.forest
    {history : List GraphEvent}
    (steps : before.Steps history after)
    (forest : before.Forest) :
    after.Forest := by
  induction steps with
  | none => exact forest
  | next _ step inductionHypothesis => exact (step.effect inductionHypothesis).forest

theorem Step.grows
    {event : GraphEvent}
    (step : before.Step event after) :
    before.Grows after := by
  cases step with
  | root recordType aliasHint statement => exact grows_addRoot _ _
  | request older isRequest done => exact grows_resolve done
  | fetch target older name =>
      exact (Graphing.grows_fetchVertex _ _ _ _ _ _).trans (retouched_setFetched _ _).grows
  | reference present => exact (retouched_setUsed _ _).grows

theorem Steps.grows
    {history : List GraphEvent}
    (steps : before.Steps history after) :
    before.Grows after := by
  induction steps with
  | none => exact .refl _
  | next _ step inductionHypothesis => exact inductionHypothesis.trans step.grows

theorem Steps.size_le
    {history : List GraphEvent}
    (steps : before.Steps history after)
    (forest : before.Forest) :
    before.size ≤ after.size := by
  induction steps with
  | none => exact Nat.le_refl _
  | next earlier step inductionHypothesis =>
      exact Nat.le_trans inductionHypothesis (step.effect (earlier.forest forest)).size_le

theorem Steps.present
    {history : List GraphEvent}
    (steps : before.Steps history after)
    (forest : before.Forest)
    (member : event ∈ history) :
    event.id.index < after.size := by
  induction steps with
  | none => cases member
  | next earlier step inductionHypothesis =>
      have effect := step.effect (earlier.forest forest)
      rcases List.mem_cons.mp member with rfl | old
      · exact effect.present
      · exact Nat.lt_of_lt_of_le (inductionHypothesis old) effect.size_le

/-! ## What a history leaves -/

/-- A contributor was granted a vertex in the course of a history. -/
def Asks
    (history : List GraphEvent)
    (id : VertexId)
    (contributor : Contributor) : Prop :=
  ∃ parent, GraphEvent.granted contributor parent id ∈ history

theorem asks_append
    {later earlier : List GraphEvent}
    {id : VertexId}
    {contributor : Contributor} :
    Asks (later ++ earlier) id contributor ↔
      Asks later id contributor ∨ Asks earlier id contributor := by
  simp only [Asks, List.mem_append, exists_or]

@[simp] theorem asks_cons_root
    {history : List GraphEvent}
    {root id : VertexId}
    {contributor : Contributor} :
    Asks (.root root :: history) id contributor ↔ Asks history id contributor := by
  simp [Asks]

@[simp] theorem asks_cons_reference
    {history : List GraphEvent}
    {place id : VertexId}
    {contributor : Contributor} :
    Asks (.reference place :: history) id contributor ↔ Asks history id contributor := by
  simp [Asks]

theorem asks_cons_granted
    {history : List GraphEvent}
    {parent place id : VertexId}
    {contributor other : Contributor} :
    Asks (.granted contributor parent place :: history) id other ↔
      (other = contributor ∧ id = place) ∨ Asks history id other := by
  simp only [Asks, List.mem_cons, GraphEvent.granted.injEq, exists_or, exists_and_left,
    exists_eq_left]

/-- What a graph owes to the events that led to it. -/
structure Chronicle
    (history : List GraphEvent)
    (graph : JoinGraph) : Prop where
  forest : graph.Forest
  present : ∀ {event}, event ∈ history -> event.id.index < graph.size
  root : ∀ {id}, GraphEvent.root id ∈ history ↔
    ∃ edge, graph.edge? id = some edge ∧ edge.IsBare
  bare : ∀ {id edge}, graph.edge? id = some edge -> edge.parent = none -> edge.IsBare
  granted : ∀ {contributor parent id}, GraphEvent.granted contributor parent id ∈ history ->
    graph.HangsOff id parent
  aggregates : ∀ {id edge parent}, graph.edge? id = some edge -> edge.parent = some parent ->
    Aggregates (Asks history id) edge
  used : ∀ {id}, graph.Marked Vertex.used id ↔
    (∃ event ∈ history, event.uses = true ∧ id = event.id) ∨
      ∃ child, graph.HangsOff child id ∧ graph.Marked Vertex.used child
  explicit : ∀ {id}, graph.Marked Vertex.explicit id ↔
    (∃ event ∈ history, event.isDeclaration = true ∧ id = event.id) ∨
      ∃ event ∈ history, event.isFetch = true ∧ graph.Under event.id id
  fetched : ∀ {id}, graph.Marked Vertex.fetched id ↔
    ∃ event ∈ history, event.isFetch = true ∧ id = event.id

theorem chronicle_empty : Chronicle [] {} where
  forest := forest_empty
  present member := by cases member
  root := by simp [edge?, vertex?]
  bare found := by simp [edge?, vertex?] at found
  granted member := by cases member
  aggregates found := by simp [edge?, vertex?] at found
  used := by simp [Marked, vertex?]
  explicit := by simp [Marked, vertex?]
  fetched := by simp [Marked, vertex?]

namespace Effect

variable {history : List GraphEvent} (effect : before.Effect event after)

include effect

/-- A vertex that was there has the ancestors that it had. -/
theorem under_iff
    {below above : VertexId}
    (forest : before.Forest)
    (older : below.index < before.size) :
    after.Under below above ↔ before.Under below above := by
  constructor
  · intro under
    induction under using Relation.ReflTransGen.head_induction_on with
    | refl => exact .refl
    | head step _ inductionHypothesis =>
        have old := (effect.hangsOff older).mp step
        exact .head old (inductionHypothesis (Nat.lt_trans (forest.older old) older))
  · intro under
    exact Relation.ReflTransGen.mono
      (fun _ _ step => (effect.hangsOff step.lt_size).mpr step) _ _ under

/-- A vertex is used when an event makes it so, or when one directly below it is. -/
theorem used_iff
    (chronicle : Chronicle history before)
    {id : VertexId} :
    after.Marked Vertex.used id ↔
      (∃ other ∈ event :: history, other.uses = true ∧ id = other.id) ∨
        ∃ child, after.HangsOff child id ∧ after.Marked Vertex.used child := by
  simp only [List.mem_cons, exists_eq_or_imp, or_assoc]
  constructor
  · intro used
    rcases effect.used.mp used with old | ⟨uses, under⟩
    · rcases chronicle.used.mp old with seeded | ⟨child, hangs, below⟩
      · exact Or.inr (Or.inl seeded)
      · exact Or.inr (Or.inr ⟨child, (effect.hangsOff hangs.lt_size).mpr hangs,
          effect.used.mpr (Or.inl below)⟩)
    · rcases Relation.ReflTransGen.cases_tail under with rfl | ⟨child, below, hangs⟩
      · exact Or.inl ⟨uses, rfl⟩
      · exact Or.inr (Or.inr ⟨child, hangs, effect.used.mpr (Or.inr ⟨uses, below⟩)⟩)
  · rintro (⟨uses, rfl⟩ | seeded | ⟨child, hangs, below⟩)
    · exact effect.used.mpr (Or.inr ⟨uses, .refl⟩)
    · exact effect.used.mpr (Or.inl (chronicle.used.mpr (Or.inl seeded)))
    · rcases effect.used.mp below with old | ⟨uses, under⟩
      · have present : child.index < before.size := by
          obtain ⟨vertex, found, -⟩ := old
          exact lt_size_of_vertex? found
        exact effect.used.mpr (Or.inl (chronicle.used.mpr
          (Or.inr ⟨child, (effect.hangsOff present).mp hangs, old⟩)))
      · exact effect.used.mpr (Or.inr ⟨uses, under.tail hangs⟩)

theorem explicit_iff
    (chronicle : Chronicle history before)
    {id : VertexId} :
    after.Marked Vertex.explicit id ↔
      (∃ other ∈ event :: history, other.isDeclaration = true ∧ id = other.id) ∨
        ∃ other ∈ event :: history, other.isFetch = true ∧ after.Under other.id id := by
  have kept : (∃ other ∈ history, other.isFetch = true ∧ after.Under other.id id) ↔
      ∃ other ∈ history, other.isFetch = true ∧ before.Under other.id id := by
    constructor
    · rintro ⟨other, member, isFetch, under⟩
      exact ⟨other, member, isFetch,
        (effect.under_iff chronicle.forest (chronicle.present member)).mp under⟩
    · rintro ⟨other, member, isFetch, under⟩
      exact ⟨other, member, isFetch,
        (effect.under_iff chronicle.forest (chronicle.present member)).mpr under⟩
  simp only [List.mem_cons, exists_eq_or_imp, kept]
  rw [effect.explicit, chronicle.explicit]
  constructor
  · rintro ((declared | fetched) | declares | fetches)
    · exact Or.inl (Or.inr declared)
    · exact Or.inr (Or.inr fetched)
    · exact Or.inl (Or.inl declares)
    · exact Or.inr (Or.inl fetches)
  · rintro ((declares | declared) | fetches | fetched)
    · exact Or.inr (Or.inl declares)
    · exact Or.inl (Or.inl declared)
    · exact Or.inr (Or.inr fetches)
    · exact Or.inl (Or.inr fetched)

theorem fetched_iff
    (chronicle : Chronicle history before)
    {id : VertexId} :
    after.Marked Vertex.fetched id ↔
      ∃ other ∈ event :: history, other.isFetch = true ∧ id = other.id := by
  simp only [List.mem_cons, exists_eq_or_imp]
  rw [effect.fetched, chronicle.fetched]
  exact or_comm

theorem root_iff
    (chronicle : Chronicle history before)
    {id : VertexId} :
    GraphEvent.root id ∈ event :: history ↔
      ∃ edge, after.edge? id = some edge ∧ edge.IsBare := by
  have edges := effect.edges
  rw [List.mem_cons, chronicle.root]
  cases event with
  | root new =>
      obtain ⟨rfl, edge, isBare, same⟩ := edges
      rw [same]
      by_cases here : id = ⟨before.size⟩
      · simp [here, isBare]
      · simp [here]
  | granted contributor parent place =>
      obtain ⟨seats, -⟩ := edges
      by_cases here : id = place
      · subst here
        obtain ⟨edge, found, hangs⟩ := seats.edge?_self
        have older : ∀ old, before.edge? id = some old -> ¬ old.IsBare := fun old oldFound =>
          Vertex.not_isBare_of_parent (seats.parent_of_edge? oldFound)
        simp only [reduceCtorEq, false_or, found, Option.some.injEq, exists_eq_left',
          Vertex.not_isBare_of_parent hangs, iff_false, not_exists, not_and]
        exact older
      · simp [seats.edge?_of_ne here]
  | reference place => simp [edges id]

/-- A vertex without an edge is a root. -/
theorem bare_of_parent
    (chronicle : Chronicle history before)
    {id : VertexId}
    {edge : Vertex}
    (found : after.edge? id = some edge)
    (free : edge.parent = none) :
    edge.IsBare := by
  have edges := effect.edges
  cases event with
  | root new =>
      obtain ⟨-, rootEdge, isBare, same⟩ := edges
      rw [same] at found
      split at found
      · cases found
        exact isBare
      · exact chronicle.bare found free
  | granted contributor parent place =>
      obtain ⟨seats, -⟩ := edges
      by_cases here : id = place
      · subst here
        obtain ⟨edge, again, hangs⟩ := seats.edge?_self
        rw [found] at again
        cases again
        rw [free] at hangs
        cases hangs
      · rw [seats.edge?_of_ne here] at found
        exact chronicle.bare found free
  | reference place =>
      rw [edges id] at found
      exact chronicle.bare found free

theorem hangsOff_of_mem
    (chronicle : Chronicle history before)
    {contributor : Contributor}
    {parent id : VertexId}
    (member : GraphEvent.granted contributor parent id ∈ event :: history) :
    after.HangsOff id parent := by
  rcases List.mem_cons.mp member with rfl | old
  · exact effect.edges.2.mpr (Or.inr ⟨rfl, rfl⟩)
  · have present : id.index < before.size := chronicle.present old
    exact (effect.hangsOff present).mpr (chronicle.granted old)

/-- Only the contributors of the event's own vertex change. -/
theorem aggregates
    (chronicle : Chronicle history before)
    {id parent : VertexId}
    {edge : Vertex}
    (found : after.edge? id = some edge)
    (hangs : edge.parent = some parent) :
    Aggregates (Asks (event :: history) id) edge := by
  have edges := effect.edges
  have old : (∀ contributor, Asks (event :: history) id contributor ↔
      Asks history id contributor) -> before.edge? id = some edge ->
        Aggregates (Asks (event :: history) id) edge := by
    intro same foundBefore
    rw [funext fun contributor => propext (same contributor)]
    exact chronicle.aggregates foundBefore hangs
  cases event with
  | root new =>
      obtain ⟨rfl, rootEdge, isBare, same⟩ := edges
      rw [same] at found
      split at found
      · cases found
        rw [isBare.parent] at hangs
        cases hangs
      · exact old (fun _ => asks_cons_root) found
  | reference place =>
      rw [edges id] at found
      exact old (fun _ => asks_cons_reference) found
  | granted contributor place granted =>
      obtain ⟨⟨newEdge, same, placed⟩, -⟩ := edges
      rw [same] at found
      split at found
      · next here =>
          subst here
          cases found
          have asks : ∀ other, Asks (.granted contributor place id :: history) id other ↔
              Asks history id other ∨ other = contributor := by
            intro other
            rw [asks_cons_granted, and_iff_left rfl, or_comm]
          rcases placed with ⟨rfl, recordType, statement, rfl⟩ | ⟨shared, present, above, fits, rfl⟩
          · apply Aggregates.single
            intro other
            rw [asks]
            constructor
            · rintro (⟨above, earlier⟩ | same)
              · exact absurd (chronicle.present earlier) (Nat.lt_irrefl _)
              · exact same
            · exact Or.inr
          · exact (chronicle.aggregates present above).share fits asks
      · next apart =>
          refine old (fun other => ?_) found
          rw [asks_cons_granted]
          exact or_iff_right fun here => apart here.2

end Effect

theorem Chronicle.step
    {history : List GraphEvent}
    (chronicle : Chronicle history before)
    (step : before.Step event after) :
    Chronicle (event :: history) after := by
  have effect := step.effect chronicle.forest
  exact {
    forest := effect.forest
    present := by
      intro other member
      rcases List.mem_cons.mp member with rfl | old
      · exact effect.present
      · exact Nat.lt_of_lt_of_le (chronicle.present old) effect.size_le
    root := effect.root_iff chronicle
    bare := effect.bare_of_parent chronicle
    granted := effect.hangsOff_of_mem chronicle
    aggregates := effect.aggregates chronicle
    used := effect.used_iff chronicle
    explicit := effect.explicit_iff chronicle
    fetched := effect.fetched_iff chronicle }

/-- A graph with a history owes what it is to its events. -/
theorem Steps.chronicle
    {history : List GraphEvent}
    {graph : JoinGraph}
    (steps : JoinGraph.Steps {} history graph) :
    Chronicle history graph := by
  induction steps with
  | none => exact chronicle_empty
  | next _ step inductionHypothesis => exact inductionHypothesis.step step

variable {graph : JoinGraph} {history : List GraphEvent} {id : VertexId} {vertex : Vertex}

/-- A vertex is a root exactly when it was added as one. -/
theorem Chronicle.isRoot_iff
    (chronicle : Chronicle history graph)
    (found : graph.vertex? id = some vertex) :
    vertex.isRoot = true ↔ GraphEvent.root id ∈ history := by
  have edge := edge?_of_vertex? found
  rw [chronicle.root, edge]
  simp only [Option.some.injEq, exists_eq_left', Vertex.isRoot, Option.isNone_iff_eq_none]
  exact ⟨fun free => chronicle.bare edge free, fun bare => bare.parent⟩

/-- Nothing is said of a root. -/
theorem Chronicle.isRoot_eq_false
    (chronicle : Chronicle history graph)
    (found : graph.vertex? id = some vertex)
    (isolated : vertex.on.isSome = true ∨ vertex.mode.isNew = true) :
    vertex.isRoot = false := by
  cases isRoot : vertex.isRoot with
  | false => rfl
  | true =>
      have bare : vertex.edge.IsBare :=
        chronicle.bare (edge?_of_vertex? found) (Option.isNone_iff_eq_none.mp isRoot)
      have free : vertex.on = none := bare.on
      have shared : vertex.mode.isNew = false := bare.shared
      rw [free, shared] at isolated
      rcases isolated with contrary | contrary <;> cases contrary

/-- The edge of a vertex that is no root says what its contributors say together. -/
theorem Chronicle.aggregates_of_vertex?
    (chronicle : Chronicle history graph)
    (found : graph.vertex? id = some vertex)
    (below : vertex.isRoot = false) :
    Aggregates (Asks history id) vertex.edge := by
  obtain ⟨parent, hangs⟩ : ∃ parent, vertex.parent = some parent := by
    apply Option.isSome_iff_exists.mp
    simpa [Vertex.isRoot] using below
  exact chronicle.aggregates (edge?_of_vertex? found) hangs

end JoinGraph
end QueryGraph
