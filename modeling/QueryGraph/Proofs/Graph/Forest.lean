import Mathlib.Logic.Relation
import QueryGraph.Proofs.Graph.Growth

/-!
# Ancestors in a join graph

In a forest every vertex below another one is newer, and the vertices that a vertex lists
are those that hang off it. A climb then meets exactly the vertices above, and a mark that
is set on the way up reaches exactly these.
-/

namespace QueryGraph

theorem VertexId.index_eq_iff
    {id : VertexId}
    {index : Nat} :
    id.index = index ↔ id = ⟨index⟩ := by
  constructor
  · rintro rfl
    rfl
  · rintro rfl
    rfl

namespace JoinGraph

/-- A vertex is directly below another one. -/
def HangsOff
    (graph : JoinGraph)
    (id parent : VertexId) : Prop :=
  ∃ vertex, graph.vertex? id = some vertex ∧ vertex.parent = some parent

/-- A vertex is another one, or somewhere below it. -/
def Under (graph : JoinGraph) : VertexId -> VertexId -> Prop :=
  Relation.ReflTransGen graph.HangsOff

/-- Parents are older than what hangs off them, and list it. -/
structure Forest (graph : JoinGraph) : Prop where
  older : ∀ {id parent}, graph.HangsOff id parent -> parent.index < id.index
  listed : ∀ {id parent}, id ∈ graph.children parent ↔ graph.HangsOff id parent

/-- A vertex has a mark. -/
def Marked
    (graph : JoinGraph)
    (mark : Vertex -> Bool)
    (id : VertexId) : Prop :=
  ∃ vertex, graph.vertex? id = some vertex ∧ mark vertex = true

variable {graph : JoinGraph} {id parent : VertexId}

theorem vertex?_of_lt (below : id.index < graph.size) :
    ∃ vertex, graph.vertex? id = some vertex :=
  ⟨graph.vertices[id.index], Array.getElem?_eq_getElem below⟩

theorem vertex?_size (graph : JoinGraph) : graph.vertex? ⟨graph.size⟩ = none := by
  simp [vertex?, size]

theorem marked_iff
    {mark : Vertex -> Bool}
    {vertex : Vertex}
    (found : graph.vertex? id = some vertex) :
    graph.Marked mark id ↔ mark vertex = true := by
  simp only [Marked, found, Option.some.injEq, exists_eq_left']

theorem mem_children :
    id ∈ graph.children parent ↔
      ∃ above, graph.vertex? parent = some above ∧ id ∈ above.children := by
  unfold children
  cases graph.vertex? parent <;> simp

theorem HangsOff.lt_size (hangs : graph.HangsOff id parent) : id.index < graph.size := by
  obtain ⟨vertex, found, -⟩ := hangs
  exact lt_size_of_vertex? found

theorem Under.le
    {above : VertexId}
    (forest : graph.Forest)
    (under : graph.Under id above) :
    above.index ≤ id.index := by
  induction under with
  | refl => exact Nat.le_refl _
  | tail earlier hangs inductionHypothesis =>
      exact Nat.le_trans (Nat.le_of_lt (forest.older hangs)) inductionHypothesis

/-- Where the vertices below some number hang off the same vertices, those above them are the
same. -/
theorem Under.of_hangsOff
    {other : JoinGraph}
    {above : VertexId}
    {bound : Nat}
    (forest : graph.Forest)
    (keeps : ∀ {id above}, id.index < bound -> graph.HangsOff id above -> other.HangsOff id above)
    (older : id.index < bound)
    (under : graph.Under id above) :
    other.Under id above := by
  induction under with
  | refl => exact .refl
  | tail earlier hangs inductionHypothesis =>
      have between := Nat.lt_of_le_of_lt (Under.le forest earlier) older
      exact inductionHypothesis.tail (keeps between hangs)

theorem forest_empty : (JoinGraph.mk #[]).Forest where
  older hangs := absurd hangs.lt_size (Nat.not_lt_zero _)
  listed := by
    intro id parent
    simp [mem_children, HangsOff, vertex?]

/-! ## Climbing -/

/-- A climb with enough fuel meets a vertex and everything above it. -/
theorem mem_climb
    {fuel : Nat}
    {above : VertexId}
    (forest : graph.Forest)
    (enough : id.index < fuel)
    (present : id.index < graph.size) :
    above ∈ graph.climb fuel id ↔ graph.Under id above := by
  induction fuel generalizing id with
  | zero => exact absurd enough (Nat.not_lt_zero _)
  | succ fuel inductionHypothesis =>
      obtain ⟨vertex, found⟩ := vertex?_of_lt present
      unfold climb Under
      rw [Relation.ReflTransGen.cases_head_iff]
      cases hangs : vertex.parent with
      | none =>
          have top : ¬ ∃ next, graph.HangsOff id next ∧
              Relation.ReflTransGen graph.HangsOff next above := by
            rintro ⟨next, ⟨again, foundAgain, hangsAgain⟩, -⟩
            rw [found] at foundAgain
            cases foundAgain
            rw [hangs] at hangsAgain
            cases hangsAgain
          simp only [found, hangs, List.mem_singleton, top, or_false, eq_comm]
      | some next =>
          have step : graph.HangsOff id next := ⟨vertex, found, hangs⟩
          have only : (∃ other, graph.HangsOff id other ∧
              Relation.ReflTransGen graph.HangsOff other above) ↔
                Relation.ReflTransGen graph.HangsOff next above := by
            constructor
            · rintro ⟨other, ⟨again, foundAgain, hangsAgain⟩, rest⟩
              rw [found] at foundAgain
              cases foundAgain
              rw [hangs] at hangsAgain
              cases hangsAgain
              exact rest
            · exact fun rest => ⟨next, step, rest⟩
          have older := forest.older step
          have climbed : above ∈ graph.climb fuel next ↔ graph.Under next above :=
            inductionHypothesis (by omega) (by omega)
          simp only [found, hangs, List.mem_cons, only, climbed, eq_comm, Under]

theorem mem_ancestry
    {above : VertexId}
    (forest : graph.Forest)
    (present : id.index < graph.size) :
    above ∈ graph.ancestry id ↔ graph.Under id above :=
  mem_climb forest present present

/-- Parents are older, so with any two bounds beyond the number of a vertex the climb is the same. -/
theorem Forest.climb_congr
    {fuel other : Nat}
    (forest : graph.Forest)
    (enough : id.index < fuel)
    (otherEnough : id.index < other) :
    graph.climb fuel id = graph.climb other id := by
  induction fuel generalizing id other with
  | zero => exact absurd enough (Nat.not_lt_zero _)
  | succ fuel inductionHypothesis =>
      obtain ⟨other, rfl⟩ : ∃ rest, other = rest + 1 := ⟨other - 1, by omega⟩
      unfold climb
      cases found : graph.vertex? id with
      | none => rfl
      | some vertex =>
          cases hangs : vertex.parent with
          | none => simp only [hangs]
          | some parent =>
              have older := forest.older ⟨vertex, found, hangs⟩
              have above : graph.climb fuel parent = graph.climb other parent :=
                inductionHypothesis (by omega) (by omega)
              simp only [hangs, above]

/-- The climb to a root takes no more steps than there are vertices, whatever bound it is given. -/
theorem Forest.climb_eq_ancestry
    {fuel : Nat}
    (forest : graph.Forest)
    (enough : graph.size ≤ fuel) :
    graph.climb fuel id = graph.ancestry id := by
  by_cases present : id.index < graph.size
  · exact forest.climb_congr (by omega) present
  · have absent : graph.vertex? id = none :=
      Array.getElem?_eq_none_iff.mpr (Nat.le_of_not_lt present)
    have nothing (bound : Nat) : graph.climb bound id = [] := by
      cases bound with
      | zero => rfl
      | succ bound => simp only [climb, absent]
    exact (nothing fuel).trans (nothing graph.size).symm

/-! ## Marks -/

/-- A change that does nothing the second time changes each listed vertex once. -/
theorem vertex?_modifyAll
    {change : Vertex -> Vertex}
    (graph : JoinGraph)
    (ids : List VertexId)
    (other : VertexId)
    (once : ∀ vertex, change (change vertex) = change vertex) :
    (graph.modifyAll ids change).vertex? other =
      if other ∈ ids then (graph.vertex? other).map change else graph.vertex? other := by
  unfold modifyAll
  induction ids generalizing graph with
  | nil => simp
  | cons id ids inductionHypothesis =>
      rw [List.foldl_cons, inductionHypothesis, vertex?_modify]
      by_cases here : id = other
      · subst here
        by_cases again : id ∈ ids <;> cases graph.vertex? id <;> simp [again, once]
      · have differs : ¬ other = id := fun same => here same.symm
        simp [here, differs]

theorem vertex?_setUsed
    (graph : JoinGraph)
    (id other : VertexId) :
    (graph.setUsed id).vertex? other =
      if other ∈ graph.ancestry id then
        (graph.vertex? other).map fun vertex => { vertex with used := true }
      else graph.vertex? other :=
  vertex?_modifyAll graph _ other fun _ => rfl

theorem vertex?_setFetched
    (graph : JoinGraph)
    (id other : VertexId) :
    (graph.setFetched id).vertex? other =
      if other ∈ graph.ancestry id then
        (graph.vertex? other).map fun vertex =>
          { vertex with
            fetched := vertex.fetched || decide (other = id)
            used := true
            explicit := true }
      else
        (graph.vertex? other).map fun vertex =>
          { vertex with fetched := vertex.fetched || decide (other = id) } := by
  unfold setFetched
  simp only
  rw [vertex?_modifyAll _ _ other (by intro vertex; rfl), vertex?_modify]
  by_cases here : id = other
  · subst here
    cases graph.vertex? id <;> simp
  · have differs : ¬ other = id := fun same => here same.symm
    cases graph.vertex? other <;> simp [here, differs]

end JoinGraph
end QueryGraph
