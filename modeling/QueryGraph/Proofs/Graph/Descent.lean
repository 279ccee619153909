import Mathlib.Data.List.Nodup
import QueryGraph.Proofs.Graph.Labels

/-!
# Descending a join graph

A new vertex is listed last below its parent, so the vertices below another one are listed in
the order of their creation. A descent from a vertex then meets everything below it once, and
the descents from all roots meet every vertex of a forest once.
-/

namespace QueryGraph
namespace JoinGraph

variable {graph before after : JoinGraph} {id parent other : VertexId}

/-! ## The order of the vertices below another one -/

theorem children_modify
    {change : Vertex -> Vertex}
    (graph : JoinGraph)
    (id other : VertexId)
    (children : ∀ vertex, (change vertex).children = vertex.children) :
    (graph.modify id change).children other = graph.children other := by
  unfold JoinGraph.children
  rw [vertex?_modify]
  split
  · cases graph.vertex? other <;> simp [children]
  · rfl

theorem children_size (graph : JoinGraph) : graph.children ⟨graph.size⟩ = [] := by
  unfold children
  rw [vertex?_size]
  rfl

theorem children_attach
    {vertex : Vertex}
    (older : parent.index < before.size)
    (childless : vertex.children = []) :
    (before.attach parent vertex).2.children other =
      if other = parent then before.children other ++ [⟨before.size⟩]
      else before.children other := by
  by_cases new : other = ⟨before.size⟩
  · have apart : ¬ other = parent := by
      rintro rfl
      rw [new] at older
      exact Nat.lt_irrefl _ older
    rw [if_neg apart]
    subst new
    rw [children_size]
    unfold children
    rw [vertex?_attach _ _ _ _ older, if_pos rfl]
    exact childless
  · unfold children
    rw [vertex?_attach _ _ _ _ older, if_neg (VertexId.index_eq_iff.not.mpr new)]
    by_cases here : parent = other
    · subst here
      obtain ⟨above, found⟩ := vertex?_of_lt older
      simp [found]
    · rw [if_neg here, if_neg fun same => here same.symm]

theorem children_addRoot
    {root : Vertex}
    (childless : root.children = []) :
    (before.addRoot root).2.children other = before.children other := by
  by_cases new : other = ⟨before.size⟩
  · subst new
    rw [children_size]
    unfold children
    rw [vertex?_addRoot, if_pos rfl]
    exact childless
  · unfold children
    rw [vertex?_addRoot, if_neg (VertexId.index_eq_iff.not.mpr new)]

/-- The list of the vertices below another one stays, or a new vertex comes to stand at its
end. -/
def Appends
    (before after : JoinGraph)
    (other : VertexId) : Prop :=
  after.children other = before.children other ∨
    after.children other = before.children other ++ [⟨before.size⟩]

theorem appends_attach
    {vertex : Vertex}
    (older : parent.index < before.size)
    (childless : vertex.children = []) :
    before.Appends (before.attach parent vertex).2 other := by
  unfold Appends
  rw [children_attach older childless]
  by_cases here : other = parent
  · exact Or.inr (if_pos here)
  · exact Or.inl (if_neg here)

theorem appends_resolve
    {request : JoinRequest}
    {resolution : Resolution}
    (older : parent.index < before.size)
    (done : resolve parent request before = .ok resolution after) :
    before.Appends after other := by
  rcases resolve_eq_ok.mp done with ⟨-, -, rfl⟩ | ⟨existing, -, -, -, rfl⟩
  · unfold create
    simp only
    split
    · unfold Appends
      rw [children_setUsed]
      exact appends_attach older rfl
    · exact appends_attach older rfl
  · refine Or.inl ?_
    unfold merge
    have merged : (before.modify existing fun vertex => vertex.mergeRequest request).children other =
        before.children other := children_modify before existing other fun _ => rfl
    simp only
    split
    · rw [children_setUsed, merged]
    · exact merged

theorem appends_fetchVertex
    {field : Field}
    {target : String}
    {direction : JoinDirection}
    {collection : CollectionFetch}
    (older : parent.index < before.size) :
    before.Appends (before.fetchVertex parent field target direction collection).2 other := by
  unfold fetchVertex
  simp only
  split
  · exact Or.inl (children_modify _ _ _ fun _ => rfl)
  · exact appends_attach older rfl

theorem Step.appends
    {event : GraphEvent}
    (step : before.Step event after) :
    before.Appends after other := by
  cases step with
  | root recordType aliasHint statement => exact Or.inl (children_addRoot rfl)
  | request older isRequest done => exact appends_resolve older done
  | fetch target older name =>
      unfold Appends
      rw [children_setFetched]
      exact appends_fetchVertex older
  | reference present => exact Or.inl (children_setUsed _ _ _)

/-- The vertices below another one are listed in the order of their creation. -/
def Ordered (graph : JoinGraph) : Prop :=
  ∀ parent, (graph.children parent).Pairwise fun first second => first.index < second.index

theorem Ordered.of_children
    (ordered : before.Ordered)
    (children : ∀ other, after.children other = before.children other) :
    after.Ordered := by
  intro other
  rw [children]
  exact ordered other

theorem Ordered.nodup
    (ordered : graph.Ordered)
    (parent : VertexId) :
    (graph.children parent).Nodup :=
  (ordered parent).imp fun before same => by
    rw [same] at before
    exact Nat.lt_irrefl _ before

theorem Ordered.step
    {event : GraphEvent}
    (ordered : before.Ordered)
    (forest : before.Forest)
    (step : before.Step event after) :
    after.Ordered := by
  intro parent
  rcases step.appends with same | added
  · rw [same]
    exact ordered parent
  · rw [added, List.pairwise_append]
    refine ⟨ordered parent, List.pairwise_singleton _ _, ?_⟩
    intro child member new isNew
    rw [List.mem_singleton.mp isNew]
    exact (forest.listed.mp member).lt_size

theorem Steps.ordered
    {history : List GraphEvent}
    (steps : before.Steps history after)
    (forest : before.Forest)
    (ordered : before.Ordered) :
    after.Ordered := by
  induction steps with
  | none => exact ordered
  | next earlier step inductionHypothesis =>
      exact inductionHypothesis.step (earlier.forest forest) step

theorem ordered_empty : (JoinGraph.mk #[]).Ordered := by
  intro parent
  simp [children, vertex?]

/-! ## Descents -/

theorem HangsOff.unique
    {above : VertexId}
    (first : graph.HangsOff id parent)
    (second : graph.HangsOff id above) :
    parent = above := by
  obtain ⟨vertex, found, hangs⟩ := first
  obtain ⟨again, foundAgain, hangsAgain⟩ := second
  rw [found] at foundAgain
  cases foundAgain
  rw [hangs] at hangsAgain
  exact Option.some.inj hangsAgain

/-- Of two vertices above another one, one is above the other. -/
theorem Under.total
    {first second : VertexId}
    (underFirst : graph.Under id first)
    (underSecond : graph.Under id second) :
    graph.Under first second ∨ graph.Under second first :=
  Relation.ReflTransGen.total_of_right_unique
    (fun _ _ _ one two => HangsOff.unique one two) underFirst underSecond

/-- A descent with enough fuel meets a vertex and everything below it. -/
theorem mem_descend
    {fuel : Nat}
    (forest : graph.Forest)
    (enough : graph.size ≤ id.index + fuel)
    (present : id.index < graph.size) :
    other ∈ graph.descend fuel id ↔ graph.Under other id := by
  induction fuel generalizing id with
  | zero => omega
  | succ fuel inductionHypothesis =>
      have below : ∀ child ∈ graph.children id,
          (other ∈ graph.descend fuel child ↔ graph.Under other child) := by
        intro child member
        have hangs := forest.listed.mp member
        have newer := forest.older hangs
        exact inductionHypothesis (by omega) hangs.lt_size
      unfold descend
      rw [List.mem_cons, List.mem_flatMap, Under, Relation.ReflTransGen.cases_tail_iff, eq_comm]
      refine or_congr_right ?_
      constructor
      · rintro ⟨child, member, meets⟩
        exact ⟨child, (below child member).mp meets, forest.listed.mp member⟩
      · rintro ⟨child, under, hangs⟩
        exact ⟨child, forest.listed.mpr hangs, (below child (forest.listed.mpr hangs)).mpr under⟩

/-- Nothing is below two different vertices that hang off the same one. -/
theorem Under.sibling_eq
    {first second : VertexId}
    (forest : graph.Forest)
    (firstHangs : graph.HangsOff first parent)
    (secondHangs : graph.HangsOff second parent)
    (underFirst : graph.Under id first)
    (underSecond : graph.Under id second) :
    first = second := by
  have apart : ∀ {low high}, graph.HangsOff low parent -> graph.HangsOff high parent ->
      graph.Under low high -> low = high := by
    intro low high lowHangs highHangs under
    rcases Relation.ReflTransGen.cases_head under with same | ⟨next, step, rest⟩
    · exact same
    · rw [step.unique lowHangs] at rest
      have newer := forest.older highHangs
      exact absurd (Under.le forest rest) (by omega)
  rcases underFirst.total underSecond with under | under
  · exact apart firstHangs secondHangs under
  · exact (apart secondHangs firstHangs under).symm

/-- A descent meets nothing twice. -/
theorem nodup_descend
    {fuel : Nat}
    (forest : graph.Forest)
    (ordered : graph.Ordered)
    (enough : graph.size ≤ id.index + fuel)
    (present : id.index < graph.size) :
    (graph.descend fuel id).Nodup := by
  induction fuel generalizing id with
  | zero => exact List.nodup_nil
  | succ fuel inductionHypothesis =>
      have deeper : ∀ child ∈ graph.children id,
          graph.HangsOff child id ∧ graph.size ≤ child.index + fuel := by
        intro child member
        have hangs := forest.listed.mp member
        have newer := forest.older hangs
        exact ⟨hangs, by omega⟩
      unfold descend
      rw [List.nodup_cons, List.nodup_flatMap, List.mem_flatMap]
      refine ⟨?_, ?_, ?_⟩
      · rintro ⟨child, member, meets⟩
        obtain ⟨hangs, enoughBelow⟩ := deeper child member
        have under := (mem_descend forest enoughBelow hangs.lt_size).mp meets
        have newer := forest.older hangs
        exact absurd (Under.le forest under) (by omega)
      · intro child member
        obtain ⟨hangs, enoughBelow⟩ := deeper child member
        exact inductionHypothesis enoughBelow hangs.lt_size
      · refine (List.Pairwise.and_mem.mp (ordered.nodup id)).imp ?_
        rintro first second ⟨firstMember, secondMember, differs⟩ met metFirst metSecond
        obtain ⟨firstHangs, firstEnough⟩ := deeper first firstMember
        obtain ⟨secondHangs, secondEnough⟩ := deeper second secondMember
        exact differs (Under.sibling_eq forest firstHangs secondHangs
          ((mem_descend forest firstEnough firstHangs.lt_size).mp metFirst)
          ((mem_descend forest secondEnough secondHangs.lt_size).mp metSecond))

/-! ## Roots -/

/-- The roots, in the order of their creation. -/
def rootIds (graph : JoinGraph) : List VertexId :=
  graph.ids.filter fun id => (graph.vertex? id).any Vertex.isRoot

theorem mem_ids : id ∈ graph.ids ↔ id.index < graph.size := by
  unfold ids
  simp only [List.mem_map, List.mem_range]
  constructor
  · rintro ⟨index, below, rfl⟩
    exact below
  · exact fun below => ⟨id.index, below, rfl⟩

theorem nodup_ids (graph : JoinGraph) : graph.ids.Nodup :=
  List.nodup_range.map fun _ _ same => congrArg VertexId.index same

theorem mem_rootIds : id ∈ graph.rootIds ↔ graph.Marked Vertex.isRoot id := by
  unfold rootIds
  rw [List.mem_filter, mem_ids, Option.any_eq_true]
  constructor
  · rintro ⟨-, vertex, found, isRoot⟩
    exact ⟨vertex, found, isRoot⟩
  · rintro ⟨vertex, found, isRoot⟩
    exact ⟨lt_size_of_vertex? found, vertex, found, isRoot⟩

theorem rootIds_push (graph : JoinGraph) (vertex : Vertex) :
    (JoinGraph.mk (graph.vertices.push vertex)).rootIds =
      graph.rootIds ++ if vertex.isRoot then [⟨graph.size⟩] else [] := by
  have lookup : ∀ id : VertexId, (JoinGraph.mk (graph.vertices.push vertex)).vertex? id =
      if id.index = graph.size then some vertex else graph.vertex? id :=
    vertex?_addRoot graph vertex
  have ids : (JoinGraph.mk (graph.vertices.push vertex)).ids = graph.ids ++ [⟨graph.size⟩] := by
    simp [JoinGraph.ids, size, List.range_succ]
  unfold rootIds
  rw [ids, List.filter_append]
  congr 1
  · refine List.filter_congr fun id member => ?_
    rw [lookup, if_neg (Nat.ne_of_lt (mem_ids.mp member))]
  · rw [List.filter_singleton, lookup, if_pos rfl, Option.any_some, cond_eq_ite]

theorem rootIds_modify
    {change : Vertex -> Vertex}
    (graph : JoinGraph)
    (id : VertexId)
    (keeps : ∀ vertex, (change vertex).parent = vertex.parent) :
    (graph.modify id change).rootIds = graph.rootIds := by
  unfold rootIds ids
  rw [size_modify]
  refine List.filter_congr fun other _ => ?_
  rw [vertex?_modify]
  split
  · cases graph.vertex? other <;> simp [Vertex.isRoot, keeps]
  · rfl

theorem rootIds_modifyAll
    {change : Vertex -> Vertex}
    (graph : JoinGraph)
    (ids : List VertexId)
    (keeps : ∀ vertex, (change vertex).parent = vertex.parent) :
    (graph.modifyAll ids change).rootIds = graph.rootIds := by
  unfold modifyAll
  induction ids generalizing graph with
  | nil => rfl
  | cons id ids inductionHypothesis =>
      rw [List.foldl_cons, inductionHypothesis, rootIds_modify graph id keeps]

@[simp] theorem rootIds_setUsed (graph : JoinGraph) (id : VertexId) :
    (graph.setUsed id).rootIds = graph.rootIds :=
  rootIds_modifyAll graph _ fun _ => rfl

@[simp] theorem rootIds_setFetched (graph : JoinGraph) (id : VertexId) :
    (graph.setFetched id).rootIds = graph.rootIds := by
  unfold setFetched
  simp only
  rw [rootIds_modifyAll, rootIds_modify]
  · exact fun _ => rfl
  · exact fun _ => rfl

@[simp] theorem rootIds_addRoot
    (graph : JoinGraph)
    (recordType : String)
    (aliasHint : Option String)
    (statement : NodeId) :
    (graph.addRoot (Vertex.root recordType aliasHint statement)).2.rootIds =
      graph.rootIds ++ [⟨graph.size⟩] :=
  rootIds_push graph _

@[simp] theorem rootIds_attach
    (graph : JoinGraph)
    (parent : VertexId)
    (vertex : Vertex) :
    (graph.attach parent vertex).2.rootIds = graph.rootIds := by
  have pushed : (JoinGraph.mk (graph.vertices.push { vertex with parent := some parent })).rootIds =
      graph.rootIds := by
    rw [rootIds_push]
    simp [Vertex.isRoot]
  unfold attach
  simp only
  rw [rootIds_modify, pushed]
  exact fun _ => rfl

theorem rootIds_resolve
    {request : JoinRequest}
    {resolution : Resolution}
    (done : resolve parent request before = .ok resolution after) :
    after.rootIds = before.rootIds := by
  rcases resolve_eq_ok.mp done with ⟨-, -, rfl⟩ | ⟨existing, -, -, -, rfl⟩
  · unfold create
    simp only
    split <;> simp
  · unfold merge
    simp only
    have merged : (before.modify existing fun vertex => vertex.mergeRequest request).rootIds =
        before.rootIds := rootIds_modify before existing fun _ => rfl
    split
    · rw [rootIds_setUsed, merged]
    · exact merged

theorem rootIds_fetchVertex
    (graph : JoinGraph)
    (parent : VertexId)
    (field : Field)
    (target : String)
    (direction : JoinDirection)
    (collection : CollectionFetch) :
    (graph.fetchVertex parent field target direction collection).2.rootIds = graph.rootIds := by
  unfold fetchVertex
  simp only
  split
  · exact rootIds_modify _ _ fun _ => rfl
  · exact rootIds_attach _ _ _

@[simp] theorem rootIds_assignLabels
    (graph : JoinGraph)
    (config : CompilerConfig)
    (roots : List VertexId) :
    (graph.assignLabels config roots).rootIds = graph.rootIds := by
  unfold assignLabels
  generalize (graph.usedPreorder roots).zipIdx = numbered
  induction numbered generalizing graph with
  | nil => rfl
  | cons first rest inductionHypothesis =>
      rw [List.foldl_cons, inductionHypothesis]
      exact rootIds_modify _ _ fun _ => rfl

theorem Steps.rootIds
    {history : List GraphEvent}
    (steps : before.Steps history after)
    (rootless : ∀ {id}, GraphEvent.root id ∉ history) :
    after.rootIds = before.rootIds := by
  induction steps with
  | none => rfl
  | next earlier step inductionHypothesis =>
      rw [← inductionHypothesis fun member => rootless (List.mem_cons_of_mem _ member)]
      cases step with
      | root recordType aliasHint statement => exact absurd List.mem_cons_self rootless
      | request older isRequest done => exact rootIds_resolve done
      | fetch target older name => rw [rootIds_setFetched, rootIds_fetchVertex]
      | reference present => exact rootIds_setUsed _ _

/-- Everything is below a root. -/
theorem exists_root
    (forest : graph.Forest)
    (present : id.index < graph.size) :
    ∃ root ∈ graph.rootIds, graph.Under id root := by
  obtain ⟨index⟩ := id
  induction index using Nat.strongRecOn with
  | ind index inductionHypothesis =>
      obtain ⟨vertex, found⟩ := vertex?_of_lt present
      cases hangs : vertex.parent with
      | none =>
          exact ⟨⟨index⟩, mem_rootIds.mpr ⟨vertex, found, by simp [Vertex.isRoot, hangs]⟩, .refl⟩
      | some parent =>
          have step : graph.HangsOff ⟨index⟩ parent := ⟨vertex, found, hangs⟩
          have older := forest.older step
          obtain ⟨root, isRoot, under⟩ :=
            inductionHypothesis parent.index older (Nat.lt_trans older present)
          exact ⟨root, isRoot, .head step under⟩

/-- A root is below nothing. -/
theorem Under.eq_of_root
    {root : VertexId}
    (isRoot : root ∈ graph.rootIds)
    (under : graph.Under root other) :
    root = other := by
  rcases Relation.ReflTransGen.cases_head under with same | ⟨next, ⟨vertex, found, hangs⟩, -⟩
  · exact same
  · obtain ⟨again, foundAgain, free⟩ := mem_rootIds.mp isRoot
    rw [found] at foundAgain
    cases foundAgain
    simp [Vertex.isRoot, hangs] at free

/-- The descents from all roots meet every vertex once. -/
theorem preorder_perm
    (forest : graph.Forest)
    (ordered : graph.Ordered) :
    (graph.preorder graph.rootIds).Perm graph.ids := by
  have descends : ∀ root ∈ graph.rootIds, ∀ {other},
      (other ∈ graph.descend graph.size root ↔ graph.Under other root) := by
    intro root isRoot other
    obtain ⟨vertex, found, -⟩ := mem_rootIds.mp isRoot
    exact mem_descend forest (Nat.le_add_left _ _) (lt_size_of_vertex? found)
  unfold preorder
  refine (List.perm_ext_iff_of_nodup ?_ (nodup_ids graph)).mpr ?_
  · rw [List.nodup_flatMap]
    constructor
    · intro root isRoot
      obtain ⟨vertex, found, -⟩ := mem_rootIds.mp isRoot
      exact nodup_descend forest ordered (Nat.le_add_left _ _) (lt_size_of_vertex? found)
    · refine (List.Pairwise.and_mem.mp ((nodup_ids graph).filter _)).imp ?_
      rintro first second ⟨firstRoot, secondRoot, differs⟩ met metFirst metSecond
      have underFirst := (descends first firstRoot).mp metFirst
      have underSecond := (descends second secondRoot).mp metSecond
      rcases underFirst.total underSecond with under | under
      · exact differs (under.eq_of_root firstRoot)
      · exact differs (under.eq_of_root secondRoot).symm
  · intro id
    rw [mem_ids, List.mem_flatMap]
    constructor
    · rintro ⟨root, isRoot, met⟩
      have under := (descends root isRoot).mp met
      rcases Relation.ReflTransGen.cases_head under with rfl | ⟨next, step, -⟩
      · obtain ⟨vertex, found, -⟩ := mem_rootIds.mp isRoot
        exact lt_size_of_vertex? found
      · exact step.lt_size
    · intro present
      obtain ⟨root, isRoot, under⟩ := exists_root forest present
      exact ⟨root, isRoot, (descends root isRoot).mpr under⟩

end JoinGraph
end QueryGraph
