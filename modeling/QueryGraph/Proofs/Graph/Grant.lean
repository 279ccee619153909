import QueryGraph.Proofs.Graph.Contributor
import QueryGraph.Proofs.Graph.Forest
import QueryGraph.Proofs.Graph.Resolution

/-!
# What a granted contributor does to a join graph

A declared join, a navigation or a fetch that is granted a vertex adds an edge of its own or
comes to share one below the same parent over the same relation. Beyond that it only marks:
a vertex that has to be kept is used with everything above it, and a fetch makes these explicit
as well.
-/

namespace QueryGraph

/-- A vertex without its marks and without the list of what is below it: what is known of the
edge that leads to it. -/
def Vertex.edge (vertex : Vertex) : Vertex :=
  { vertex with
    used := false
    fetched := false
    explicit := false
    children := []
    identifier := none
    aliasName := none }

/-- The request that stands for a contributor which is not a fetch. -/
def Contributor.request
    (contributor : Contributor)
    (targetType : String) : JoinRequest where
  field := contributor.field
  targetType := targetType
  direction := contributor.direction
  mode := contributor.mode
  aliasHint := contributor.aliasHint
  on := contributor.on
  origin := if contributor.isJoin then .explicit else .implicit

namespace JoinGraph

/-- The edge that leads to a vertex. -/
def edge? (graph : JoinGraph) (id : VertexId) : Option Vertex :=
  (graph.vertex? id).map Vertex.edge

variable {graph before middle after : JoinGraph} {id parent other : VertexId}
  {contributor : Contributor}

theorem edge?_eq_some
    {edge : Vertex} :
    graph.edge? id = some edge ↔
      ∃ vertex, graph.vertex? id = some vertex ∧ vertex.edge = edge :=
  Option.map_eq_some_iff

theorem edge?_eq_none : graph.edge? id = none ↔ graph.size ≤ id.index := by
  unfold edge? vertex? size
  rw [Option.map_eq_none_iff, Array.getElem?_eq_none_iff]

theorem edge?_of_vertex?
    {vertex : Vertex}
    (found : graph.vertex? id = some vertex) :
    graph.edge? id = some vertex.edge :=
  edge?_eq_some.mpr ⟨vertex, found, rfl⟩

theorem lt_size_of_edge?
    {edge : Vertex}
    (found : graph.edge? id = some edge) :
    id.index < graph.size := by
  obtain ⟨vertex, present, -⟩ := edge?_eq_some.mp found
  exact lt_size_of_vertex? present

theorem edge?_of_lt (below : id.index < graph.size) : ∃ edge, graph.edge? id = some edge := by
  obtain ⟨vertex, found⟩ := vertex?_of_lt below
  exact ⟨_, edge?_of_vertex? found⟩

theorem hangsOff_iff :
    graph.HangsOff id parent ↔
      ∃ edge, graph.edge? id = some edge ∧ edge.parent = some parent := by
  constructor
  · rintro ⟨vertex, found, hangs⟩
    exact ⟨_, edge?_of_vertex? found, hangs⟩
  · rintro ⟨edge, found, hangs⟩
    obtain ⟨vertex, present, rfl⟩ := edge?_eq_some.mp found
    exact ⟨vertex, present, hangs⟩

/-- Graphs with the same edges have the same ancestors. -/
theorem hangsOff_eq
    (edges : ∀ other, after.edge? other = before.edge? other) :
    after.HangsOff = before.HangsOff := by
  funext child above
  simp only [hangsOff_iff, edges]

/-- Graphs with the same edges have as many vertices. -/
theorem size_eq_of_edges
    (edges : ∀ other, after.edge? other = before.edge? other) :
    after.size = before.size := by
  have bounded : ∀ size, after.size ≤ size ↔ before.size ≤ size := by
    intro size
    have lookup := edges ⟨size⟩
    exact edge?_eq_none.symm.trans (by rw [lookup]; exact edge?_eq_none)
  exact Nat.le_antisymm ((bounded _).mpr (Nat.le_refl _)) ((bounded _).mp (Nat.le_refl _))

theorem Forest.of_edges
    (forest : before.Forest)
    (edges : ∀ other, after.edge? other = before.edge? other)
    (children : ∀ other, after.children other = before.children other) :
    after.Forest where
  older hangs := by
    rw [hangsOff_eq edges] at hangs
    exact forest.older hangs
  listed := by
    intro child above
    rw [hangsOff_eq edges, children]
    exact forest.listed

/-! ## Marking -/

@[simp] theorem edge?_setUsed (graph : JoinGraph) (id other : VertexId) :
    (graph.setUsed id).edge? other = graph.edge? other := by
  unfold edge?
  rw [vertex?_setUsed]
  split
  · cases graph.vertex? other <;> rfl
  · rfl

@[simp] theorem children_setUsed (graph : JoinGraph) (id other : VertexId) :
    (graph.setUsed id).children other = graph.children other := by
  unfold children
  rw [vertex?_setUsed]
  split
  · cases graph.vertex? other <;> rfl
  · rfl

/-- Marking vertices as used leaves every other mark. -/
theorem marked_setUsed
    {mark : Vertex -> Bool}
    (graph : JoinGraph)
    (id other : VertexId)
    (ignores : ∀ vertex : Vertex, mark { vertex with used := true } = mark vertex) :
    (graph.setUsed id).Marked mark other ↔ graph.Marked mark other := by
  unfold Marked
  rw [vertex?_setUsed]
  split
  · cases graph.vertex? other <;> simp [ignores]
  · rfl

theorem marked_used_setUsed
    (forest : graph.Forest)
    (present : id.index < graph.size) :
    (graph.setUsed id).Marked Vertex.used other ↔
      graph.Marked Vertex.used other ∨ graph.Under id other := by
  unfold Marked
  rw [vertex?_setUsed, ← mem_ancestry forest present]
  split
  · next above =>
      have older := Under.le forest ((mem_ancestry forest present).mp above)
      obtain ⟨vertex, found⟩ := vertex?_of_lt (show other.index < graph.size by omega)
      simp [found, above]
  · next apart => simp [apart]

@[simp] theorem edge?_setFetched (graph : JoinGraph) (id other : VertexId) :
    (graph.setFetched id).edge? other = graph.edge? other := by
  unfold edge?
  rw [vertex?_setFetched]
  split <;> cases graph.vertex? other <;> rfl

@[simp] theorem children_setFetched (graph : JoinGraph) (id other : VertexId) :
    (graph.setFetched id).children other = graph.children other := by
  unfold children
  rw [vertex?_setFetched]
  split <;> cases graph.vertex? other <;> rfl

theorem marked_fetched_setFetched
    (present : id.index < graph.size) :
    (graph.setFetched id).Marked Vertex.fetched other ↔
      graph.Marked Vertex.fetched other ∨ other = id := by
  unfold Marked
  rw [vertex?_setFetched]
  by_cases here : other = id
  · subst here
    obtain ⟨vertex, found⟩ := vertex?_of_lt present
    split <;> simp [found]
  · split <;> cases graph.vertex? other <;> simp [here]

/-- Everything above a fetched vertex gets the marks of one that is used and explicit. -/
theorem marked_setFetched
    {mark : Vertex -> Bool}
    (forest : graph.Forest)
    (present : id.index < graph.size)
    (ignores : ∀ (vertex : Vertex) fetched, mark { vertex with fetched := fetched } = mark vertex)
    (marks : ∀ vertex : Vertex, mark { vertex with used := true, explicit := true } = true) :
    (graph.setFetched id).Marked mark other ↔
      graph.Marked mark other ∨ graph.Under id other := by
  unfold Marked
  rw [vertex?_setFetched, ← mem_ancestry forest present]
  split
  · next above =>
      have older := Under.le forest ((mem_ancestry forest present).mp above)
      obtain ⟨vertex, found⟩ := vertex?_of_lt (show other.index < graph.size by omega)
      have marked := (ignores { vertex with used := true, explicit := true }
        (vertex.fetched || decide (other = id))).trans (marks vertex)
      simp [found, above, marked]
  · next apart => cases graph.vertex? other <;> simp [apart, ignores]

/-! ## Finding a place -/

/-- The edge of a contributor is a new one, or one below the same parent that it comes to share.
Every other edge stays as it is. -/
def Seats
    (before : JoinGraph)
    (contributor : Contributor)
    (parent id : VertexId)
    (after : JoinGraph) : Prop :=
  ∃ edge, (∀ other, after.edge? other = if other = id then some edge else before.edge? other) ∧
    ((id = ⟨before.size⟩ ∧ ∃ recordType statement,
        edge = contributor.edge recordType statement parent) ∨
      ∃ shared, before.edge? id = some shared ∧ shared.parent = some parent ∧
        contributor.Fits shared ∧ edge = contributor.share shared)

namespace Seats

variable (seats : before.Seats contributor parent id after)

include seats

theorem edge?_self : ∃ edge, after.edge? id = some edge ∧ edge.parent = some parent := by
  obtain ⟨edge, edges, ⟨-, recordType, statement, rfl⟩ | ⟨shared, -, hangs, -, rfl⟩⟩ := seats
  · exact ⟨_, by rw [edges, if_pos rfl], rfl⟩
  · exact ⟨contributor.share shared, by rw [edges, if_pos rfl], hangs⟩

theorem edge?_of_ne (apart : other ≠ id) : after.edge? other = before.edge? other := by
  obtain ⟨edge, edges, -⟩ := seats
  rw [edges, if_neg apart]

/-- An edge that was there led from the same parent. -/
theorem parent_of_edge?
    {edge : Vertex}
    (found : before.edge? id = some edge) :
    edge.parent = some parent := by
  obtain ⟨newEdge, edges, ⟨new, -⟩ | ⟨shared, present, hangs, -⟩⟩ := seats
  · have below := lt_size_of_edge? found
    rw [new] at below
    exact absurd below (Nat.lt_irrefl _)
  · rw [present] at found
    cases found
    exact hangs

theorem lt_size : id.index < after.size := by
  obtain ⟨edge, found, -⟩ := seats.edge?_self
  exact lt_size_of_edge? found

theorem size_le : before.size ≤ after.size := by
  by_contra larger
  obtain ⟨found, present⟩ := edge?_of_lt (show (VertexId.mk after.size).index < before.size by
    simpa using larger)
  have missing : after.edge? ⟨after.size⟩ = none := edge?_eq_none.mpr (Nat.le_refl _)
  by_cases here : (⟨after.size⟩ : VertexId) = id
  · have below := seats.lt_size
    rw [← here] at below
    exact Nat.lt_irrefl _ below
  · rw [seats.edge?_of_ne here, present] at missing
    cases missing

end Seats

/-- A contributor has a vertex, and nothing is marked yet. -/
structure Admits
    (before : JoinGraph)
    (contributor : Contributor)
    (parent id : VertexId)
    (after : JoinGraph) : Prop where
  older : parent.index < before.size
  edges : before.Seats contributor parent id after
  children : ∀ {child above}, child ∈ after.children above ↔
    child ∈ before.children above ∨ child = id ∧ above = parent
  used : ∀ {other}, after.Marked Vertex.used other ↔ before.Marked Vertex.used other
  explicit : ∀ {other}, after.Marked Vertex.explicit other ↔
    before.Marked Vertex.explicit other ∨ contributor.isJoin = true ∧ other = id
  fetched : ∀ {other}, after.Marked Vertex.fetched other ↔ before.Marked Vertex.fetched other

namespace Admits

variable (admits : before.Admits contributor parent id after)

include admits

/-- Only the vertex of the contributor comes to hang off another one. -/
theorem hangsOff
    {child above : VertexId} :
    after.HangsOff child above ↔
      before.HangsOff child above ∨ child = id ∧ above = parent := by
  simp only [hangsOff_iff]
  obtain ⟨edge, edges, own | ⟨shared, found, hangs, -, rfl⟩⟩ := admits.edges
  · obtain ⟨new, recordType, statement, rfl⟩ := own
    rw [edges]
    by_cases here : child = id
    · subst here
      have missing : before.edge? child = none := edge?_eq_none.mpr (by simp [new])
      simp [missing, Contributor.edge, eq_comm]
    · simp [here]
  · rw [edges]
    by_cases here : child = id
    · subst here
      rw [if_pos rfl, found]
      simp only [Option.some.injEq, exists_eq_left', true_and]
      change shared.parent = some above ↔ shared.parent = some above ∨ above = parent
      rw [hangs, Option.some.injEq, eq_comm, or_self]
    · simp [here]

theorem forest (forest : before.Forest) : after.Forest where
  older hangs := by
    rcases admits.hangsOff.mp hangs with old | ⟨rfl, rfl⟩
    · exact forest.older old
    · obtain ⟨edge, edges, ⟨rfl, -⟩ | ⟨shared, found, hangs, -⟩⟩ := admits.edges
      · exact admits.older
      · exact forest.older (hangsOff_iff.mpr ⟨shared, found, hangs⟩)
  listed := by
    intro child above
    rw [admits.children, admits.hangsOff, forest.listed]

end Admits

/-- A contributor has a vertex, and everything is marked that has to be. -/
structure Grants
    (before : JoinGraph)
    (contributor : Contributor)
    (parent id : VertexId)
    (after : JoinGraph) : Prop where
  forest : after.Forest
  edges : before.Seats contributor parent id after
  hangsOff : ∀ {child above}, after.HangsOff child above ↔
    before.HangsOff child above ∨ child = id ∧ above = parent
  used : ∀ {other}, after.Marked Vertex.used other ↔
    before.Marked Vertex.used other ∨ contributor.keeps = true ∧ after.Under id other
  explicit : ∀ {other}, after.Marked Vertex.explicit other ↔
    before.Marked Vertex.explicit other ∨ contributor.isJoin = true ∧ other = id ∨
      contributor.isFetch = true ∧ after.Under id other
  fetched : ∀ {other}, after.Marked Vertex.fetched other ↔
    before.Marked Vertex.fetched other ∨ contributor.isFetch = true ∧ other = id

namespace Admits

/-- A declared join and a navigation use the vertex when it has to be kept. -/
theorem grants_request
    (admits : before.Admits contributor parent id middle)
    (forest : before.Forest)
    (isRequest : contributor.isFetch = false) :
    before.Grants contributor parent id
      (if contributor.keeps then middle.setUsed id else middle) := by
  have grown := admits.forest forest
  cases keeps : contributor.keeps with
  | false =>
      rw [if_neg Bool.false_ne_true]
      exact {
        forest := grown
        edges := admits.edges
        hangsOff := admits.hangsOff
        used := by simp [admits.used, keeps]
        explicit := by simp [admits.explicit, isRequest]
        fetched := by simp [admits.fetched, isRequest] }
  | true =>
      rw [if_pos rfl]
      have same : (middle.setUsed id).HangsOff = middle.HangsOff :=
        hangsOff_eq (edge?_setUsed middle id)
      exact {
        forest := grown.of_edges (edge?_setUsed middle id) (children_setUsed middle id)
        edges := by simpa only [Seats, edge?_setUsed] using admits.edges
        hangsOff := by
          intro child above
          rw [same]
          exact admits.hangsOff
        used := by
          intro other
          rw [marked_used_setUsed grown admits.edges.lt_size, admits.used, Under, Under, same]
          simp only [keeps, true_and]
        explicit := by
          intro other
          rw [marked_setUsed middle id other fun _ => rfl, admits.explicit]
          simp [isRequest]
        fetched := by
          intro other
          rw [marked_setUsed middle id other fun _ => rfl, admits.fetched]
          simp [isRequest] }

/-- A fetch uses the vertex with everything above it, and asks for it. -/
theorem grants_fetch
    (admits : before.Admits contributor parent id middle)
    (forest : before.Forest)
    (isFetch : contributor.isFetch = true) :
    before.Grants contributor parent id (middle.setFetched id) := by
  have grown := admits.forest forest
  have same : (middle.setFetched id).HangsOff = middle.HangsOff :=
    hangsOff_eq (edge?_setFetched middle id)
  have keeps : contributor.keeps = true := by simp [Contributor.keeps, isFetch]
  exact {
    forest := grown.of_edges (edge?_setFetched middle id) (children_setFetched middle id)
    edges := by simpa only [Seats, edge?_setFetched] using admits.edges
    hangsOff := by
      intro child above
      rw [same]
      exact admits.hangsOff
    used := by
      intro other
      rw [marked_setFetched grown admits.edges.lt_size (fun _ _ => rfl) fun _ => rfl, admits.used,
        Under, Under, same]
      simp only [keeps, true_and]
    explicit := by
      intro other
      rw [marked_setFetched grown admits.edges.lt_size (fun _ _ => rfl) fun _ => rfl, admits.explicit,
        Under, Under, same]
      simp only [isFetch, true_and, or_assoc]
    fetched := by
      intro other
      rw [marked_fetched_setFetched admits.edges.lt_size, admits.fetched]
      simp only [isFetch, true_and] }

end Admits

/-! ## An edge of its own -/

section Attach

variable {vertex : Vertex} (older : parent.index < before.size)

include older

theorem edge?_attach :
    (before.attach parent vertex).2.edge? other =
      if other = ⟨before.size⟩ then some { vertex with parent := some parent }.edge
      else before.edge? other := by
  unfold edge?
  rw [vertex?_attach _ _ _ _ older]
  simp only [VertexId.index_eq_iff]
  by_cases new : other = ⟨before.size⟩
  · simp [new]
  · by_cases above : parent = other
    · cases before.vertex? other <;> simp [new, above, Vertex.edge]
    · simp [new, above]

/-- The parent of a new vertex comes to list it. -/
theorem mem_children_attach
    {above : VertexId}
    (childless : vertex.children = []) :
    other ∈ (before.attach parent vertex).2.children above ↔
      other ∈ before.children above ∨ other = ⟨before.size⟩ ∧ above = parent := by
  simp only [mem_children, vertex?_attach _ _ _ _ older, VertexId.index_eq_iff]
  by_cases new : above = ⟨before.size⟩
  · have apart : ⟨before.size⟩ ≠ parent := by
      rintro rfl
      exact Nat.lt_irrefl _ older
    simp [new, vertex?_size, childless, apart]
  · by_cases here : parent = above
    · subst here
      obtain ⟨vertex, found⟩ := vertex?_of_lt older
      simp [new, found]
    · have apart : ¬ above = parent := fun same => here same.symm
      simp [new, here, apart]

theorem marked_attach
    {mark : Vertex -> Bool}
    (ignores : ∀ (vertex : Vertex) children,
      mark { vertex with children := children } = mark vertex) :
    (before.attach parent vertex).2.Marked mark other ↔ before.Marked mark other ∨
      mark { vertex with parent := some parent } = true ∧ other = ⟨before.size⟩ := by
  unfold Marked
  simp only [vertex?_attach _ _ _ _ older, VertexId.index_eq_iff]
  by_cases new : other = ⟨before.size⟩
  · simp [new, vertex?_size]
  · by_cases above : parent = other
    · cases before.vertex? other <;> simp [new, above, ignores]
    · simp [new, above]

/-- A new vertex with the edge of a contributor. -/
theorem admits_attach
    {recordType : String}
    {statement : NodeId}
    (edge : { vertex with parent := some parent }.edge =
      contributor.edge recordType statement parent)
    (childless : vertex.children = [])
    (unused : vertex.used = false)
    (unfetched : vertex.fetched = false)
    (explicit : vertex.explicit = contributor.isJoin) :
    before.Admits contributor parent ⟨before.size⟩ (before.attach parent vertex).2 where
  older := older
  edges := ⟨_, fun _ => edge?_attach older, Or.inl ⟨rfl, recordType, statement, edge⟩⟩
  children := mem_children_attach older childless
  used := by
    intro other
    rw [marked_attach older fun _ _ => rfl]
    simp [unused]
  explicit := by
    intro other
    rw [marked_attach older fun _ _ => rfl]
    simp only [explicit]
  fetched := by
    intro other
    rw [marked_attach older fun _ _ => rfl]
    simp [unfetched]

end Attach

/-! ## A shared edge -/

section Modify

variable {vertex : Vertex} {change : Vertex -> Vertex}
  (found : before.vertex? id = some vertex)

include found

theorem vertex?_modify_of_found :
    (before.modify id change).vertex? other =
      if other = id then some (change vertex) else before.vertex? other := by
  rw [vertex?_modify]
  by_cases here : id = other
  · subst here
    simp [found]
  · have apart : ¬ other = id := fun same => here same.symm
    rw [if_neg here, if_neg apart]

theorem edge?_modify :
    (before.modify id change).edge? other =
      if other = id then some (change vertex).edge else before.edge? other := by
  unfold edge?
  rw [vertex?_modify_of_found found]
  split <;> rfl

theorem mem_children_modify
    {above : VertexId}
    (children : (change vertex).children = vertex.children) :
    other ∈ (before.modify id change).children above ↔ other ∈ before.children above := by
  simp only [mem_children, vertex?_modify_of_found found]
  by_cases here : above = id
  · subst here
    simp [found, children]
  · simp [here]

theorem marked_modify
    {mark : Vertex -> Bool}
    {sets : Bool}
    (changes : mark (change vertex) = (mark vertex || sets)) :
    (before.modify id change).Marked mark other ↔
      before.Marked mark other ∨ sets = true ∧ other = id := by
  unfold Marked
  rw [vertex?_modify_of_found found]
  by_cases here : other = id
  · subst here
    simp [found, changes]
  · simp [here]

/-- A vertex whose edge a contributor comes to share. -/
theorem admits_modify
    (older : parent.index < before.size)
    (hangs : vertex.parent = some parent)
    (listed : id ∈ before.children parent)
    (fits : contributor.Fits vertex.edge)
    (edge : (change vertex).edge = contributor.share vertex.edge)
    (children : (change vertex).children = vertex.children)
    (used : (change vertex).used = vertex.used)
    (fetched : (change vertex).fetched = vertex.fetched)
    (explicit : (change vertex).explicit = (vertex.explicit || contributor.isJoin)) :
    before.Admits contributor parent id (before.modify id change) where
  older := older
  edges := by
    refine ⟨_, fun _ => edge?_modify found,
      Or.inr ⟨_, edge?_of_vertex? found, hangs, fits, edge⟩⟩
  children := by
    intro child above
    rw [mem_children_modify found children]
    constructor
    · exact Or.inl
    · rintro (old | ⟨rfl, rfl⟩)
      · exact old
      · exact listed
  used := by
    intro other
    rw [marked_modify found (used.trans (Bool.or_false _).symm)]
    simp
  explicit := marked_modify found explicit
  fetched := by
    intro other
    rw [marked_modify found (fetched.trans (Bool.or_false _).symm)]
    simp

end Modify

/-! ## Requests and fetches -/

/-- The vertex that a request may share, when the request is granted. -/
theorem fits_of_candidate?
    {targetType : String}
    {vertex : Vertex}
    (candidate : before.candidate? parent (contributor.request targetType) = some id)
    (found : before.vertex? id = some vertex)
    (granted : vertex.mergeFault? (contributor.request targetType) = none) :
    contributor.Fits vertex.edge := by
  have merging : contributor.mode.isNew = false := by
    unfold candidate? at candidate
    split at candidate
    · cases candidate
    · next merges => simpa [Contributor.request] using merges
  obtain ⟨-, again, -, -, foundAgain, mergeable⟩ := candidate?_eq_some candidate
  rw [found] at foundAgain
  cases foundAgain
  simp only [Vertex.isMergeable, Bool.and_eq_true, decide_eq_true_eq, Bool.not_eq_true']
    at mergeable
  unfold Vertex.mergeFault? at granted
  split at granted
  · cases granted
  · next free =>
      simp only [Bool.or_eq_true, not_or, Bool.not_eq_true, Option.isSome_eq_false_iff,
        Option.isNone_iff_eq_none] at free
      refine ⟨mergeable.1.1, mergeable.1.2, free.2,
        Contributor.isExclusive_eq_false.mpr ⟨merging, free.1⟩, ?_⟩
      intro existing requested isExisting isRequested
      change vertex.aliasHint = some existing at isExisting
      simp only [isExisting, Contributor.request, isRequested] at granted
      split at granted
      · next same => exact same
      · cases granted

/-- A granted request has a vertex, and uses it when it has to be kept. -/
theorem grants_resolve
    {targetType : String}
    {resolution : Resolution}
    (forest : before.Forest)
    (older : parent.index < before.size)
    (isRequest : contributor.isFetch = false)
    (done : resolve parent (contributor.request targetType) before = .ok resolution after) :
    before.Grants contributor parent resolution.id after := by
  rcases resolve_eq_ok.mp done with ⟨-, rfl, rfl⟩ | ⟨existing, candidate, granted, rfl, rfl⟩
  · have admits : before.Admits contributor parent
        (before.create parent (contributor.request targetType)).1
        (before.attach parent (Vertex.ofRequest (contributor.request targetType)
          (((before.vertex? parent).map Vertex.statement).getD ⟨0⟩))).2 := by
      refine admits_attach older rfl rfl rfl rfl ?_
      cases isJoin : contributor.isJoin <;> simp [Vertex.ofRequest, Contributor.request, isJoin]
    have keeps : ((contributor.request targetType).mode.isRequired ||
        (contributor.request targetType).on.isSome) = contributor.keeps := by
      simp [Contributor.keeps, isRequest, Contributor.request]
    have grants := admits.grants_request forest isRequest
    rw [← keeps] at grants
    exact grants
  · obtain ⟨above, vertex, aboveFound, listed, found, -⟩ := candidate?_eq_some candidate
    rw [found] at granted
    have fits := fits_of_candidate? candidate found granted
    have hangs : vertex.parent = some parent := by
      obtain ⟨again, foundAgain, hangs⟩ :=
        forest.listed.mp (mem_children.mpr ⟨above, aboveFound, listed⟩)
      rw [found] at foundAgain
      cases foundAgain
      exact hangs
    have admits : before.Admits contributor parent existing (before.modify existing
        fun vertex => vertex.mergeRequest (contributor.request targetType)) := by
      refine admits_modify found older hangs (mem_children.mpr ⟨above, aboveFound, listed⟩) fits
        rfl rfl rfl rfl ?_
      cases isJoin : contributor.isJoin <;>
        simp [Vertex.mergeRequest, Contributor.request, isJoin]
    have keeps : (contributor.request targetType).mode.isRequired = contributor.keeps := by
      have free := (Contributor.isExclusive_eq_false.mp fits.inclusive).2
      simp [Contributor.keeps, isRequest, Contributor.request, free]
    have grants := admits.grants_request forest isRequest
    rw [← keeps] at grants
    exact grants

/-- A fetch has a vertex, which it marks as fetched. -/
theorem grants_fetchVertex
    {fetch : NodeId}
    {declared : Fetch}
    {field : Field}
    {target : String}
    (forest : before.Forest)
    (older : parent.index < before.size)
    (name : field.name = declared.field) :
    before.Grants (.fetch fetch declared) parent
      (before.fetchVertex parent field target declared.direction declared.collection).1
      ((before.fetchVertex parent field target declared.direction declared.collection).2.setFetched
        (before.fetchVertex parent field target declared.direction declared.collection).1) := by
  refine Admits.grants_fetch ?_ forest rfl
  unfold fetchVertex
  simp only
  split
  · next existing reusable =>
      have listed := List.mem_of_find?_eq_some reusable
      have fetchable := List.find?_some reusable
      obtain ⟨vertex, found, hangs⟩ := forest.listed.mp listed
      simp only [found, Option.any_some, Vertex.isFetchable, name, Bool.and_eq_true,
        decide_eq_true_eq, Bool.not_eq_true', Option.isNone_iff_eq_none] at fetchable
      refine admits_modify found older hangs listed
        ⟨fetchable.1.1.1, fetchable.1.1.2, fetchable.1.2, rfl, ?_⟩ rfl rfl rfl rfl ?_
      · intro existing requested _ contrary
        cases contrary
      · simp [Contributor.isJoin]
  · have named : ∀ statement : NodeId,
        ({ recordType := target
           field := some field.name
           direction := declared.direction
           statement := statement
           parent := some parent } : Vertex).edge =
          (Contributor.fetch fetch declared).edge target statement parent := by
      intro statement
      rw [name]
      rfl
    exact admits_attach older (named _) rfl rfl rfl rfl

end JoinGraph
end QueryGraph
