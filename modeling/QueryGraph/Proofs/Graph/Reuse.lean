import QueryGraph.Proofs.Graph.Descent
import QueryGraph.Proofs.Graph.Lodging
import QueryGraph.Proofs.Graph.Spares

/-!
# Edges that fetches reuse

Fetches come after the joins and the navigations. An edge that was there before and leads over a
collection is first loaded by a fetch of part of the collection. A fetch of the whole is given
that edge exactly when such a fetch came earlier.
-/

namespace QueryGraph

namespace DeclarationMap

/-- The declarations that were made before another one. -/
def before (map : DeclarationMap) (declaration : NodeId) : List NodeId :=
  map.keys.takeWhile fun other => other ≠ declaration

/-- A fetch of part of a relation is given a vertex. -/
def LoadsPart
    (map : DeclarationMap)
    (tree : Tree)
    (name : String)
    (id : VertexId)
    (fetch : NodeId) : Prop :=
  ∃ declared, tree.fetch? fetch = some declared ∧ declared.collection = .partially ∧
    declared.field = name ∧ map.find? fetch = some id

theorem keys_insert_of_not_mem
    {map : DeclarationMap}
    {declaration : NodeId}
    (vertex : VertexId)
    (fresh : declaration ∉ map.keys) :
    (map.insert declaration vertex).keys = map.keys ++ [declaration] := by
  unfold keys
  rw [entries_insert_of_not_mem vertex fresh, List.map_append]
  rfl

theorem before_of_append
    {map : DeclarationMap}
    {declaration : NodeId}
    {earlier later : List NodeId}
    (keys : map.keys = earlier ++ declaration :: later)
    (fresh : declaration ∉ earlier) :
    map.before declaration = earlier := by
  unfold before
  rw [keys, List.takeWhile_append_of_pos, List.takeWhile_cons_of_neg (by simp), List.append_nil]
  intro other member
  exact decide_eq_true fun same => fresh (same ▸ member)

theorem LoadsPart.extend
    {earlier later : DeclarationMap}
    {tree : Tree}
    {name : String}
    {id : VertexId}
    {fetch : NodeId}
    (loads : earlier.LoadsPart tree name id fetch)
    (kept : earlier.Extends later) :
    later.LoadsPart tree name id fetch := by
  obtain ⟨declared, isFetch, part, field, found⟩ := loads
  exact ⟨declared, isFetch, part, field, kept _ _ found⟩

theorem LoadsPart.mem_keys
    {map : DeclarationMap}
    {tree : Tree}
    {name : String}
    {id : VertexId}
    {fetch : NodeId}
    (loads : map.LoadsPart tree name id fetch) :
    fetch ∈ map.keys := by
  obtain ⟨declared, -, -, -, found⟩ := loads
  exact mem_keys_of_find? found

/-- What was declared earlier has the vertex that it had. -/
theorem LoadsPart.restrict
    {earlier later : DeclarationMap}
    {tree : Tree}
    {name : String}
    {id : VertexId}
    {fetch : NodeId}
    (loads : later.LoadsPart tree name id fetch)
    (kept : earlier.Extends later)
    (member : fetch ∈ earlier.keys) :
    earlier.LoadsPart tree name id fetch := by
  obtain ⟨declared, isFetch, part, field, found⟩ := loads
  obtain ⟨vertex, known⟩ := find?_of_mem_keys member
  cases (kept _ _ known).symm.trans found
  exact ⟨declared, isFetch, part, field, known⟩

end DeclarationMap

namespace JoinGraph

variable {graph before after : JoinGraph} {parent id place : VertexId} {name : String}

/-- The first vertex below another one that passes a test is the oldest one. -/
theorem Ordered.find?_eq
    {test : VertexId -> Bool}
    (ordered : graph.Ordered)
    (member : id ∈ graph.children parent)
    (passes : test id = true)
    (oldest : ∀ other ∈ graph.children parent, test other = true -> id.index ≤ other.index) :
    (graph.children parent).find? test = some id := by
  obtain ⟨older, younger, children⟩ := List.append_of_mem member
  refine List.find?_eq_some_iff_append.mpr ⟨passes, older, younger, children, ?_⟩
  intro other otherMember
  have sorted := ordered parent
  rw [children, List.pairwise_append] at sorted
  have earlier := sorted.2.2 other otherMember id List.mem_cons_self
  have listed : other ∈ graph.children parent := children ▸ List.mem_append_left _ otherMember
  cases tested : test other with
  | false => rfl
  | true => exact absurd (oldest other listed tested) (Nat.not_le.mpr earlier)

/-- The whole of a collection may be loaded through the free edges that are fetched. -/
theorem isFetchable_iff
    {field : Field}
    (forest : graph.Forest)
    (member : id ∈ graph.children parent)
    (many : field.isToOne = false) :
    ((graph.vertex? id).any fun vertex => vertex.isFetchable field .all) = true ↔
      graph.FreeBelow parent field.name id ∧ graph.Marked Vertex.fetched id := by
  obtain ⟨vertex, found, hangs⟩ := forest.listed.mp member
  rw [marked_iff found, found, Option.any_some]
  simp only [Vertex.isFetchable, many, Bool.and_eq_true, decide_eq_true_eq, Bool.not_eq_true',
    Option.isNone_iff_eq_none, Bool.or_false, Bool.or_eq_true, reduceCtorEq, false_or]
  constructor
  · rintro ⟨⟨⟨isField, merges⟩, unconditioned⟩, fetched⟩
    exact ⟨⟨_, edge?_of_vertex? found, hangs, isField, merges, unconditioned⟩, fetched⟩
  · rintro ⟨⟨edge, edgeFound, -, isField, merges, unconditioned⟩, fetched⟩
    cases (edge?_of_vertex? found).symm.trans edgeFound
    exact ⟨⟨⟨isField, merges⟩, unconditioned⟩, fetched⟩

/-- A fetch of the whole of a collection is given the oldest free edge exactly when that edge is
fetched. -/
theorem fetchVertex_whole
    {field : Field}
    {target : String}
    {direction : JoinDirection}
    (forest : before.Forest)
    (ordered : before.Ordered)
    (many : field.isToOne = false)
    (free : before.FreeBelow parent field.name place)
    (oldest : ∀ {other}, before.FreeBelow parent field.name other -> place.index ≤ other.index)
    (fetched : before.fetchVertex parent field target direction .all = (id, after)) :
    id = place ↔ before.Marked Vertex.fetched place := by
  have listed := forest.listed.mpr free.hangsOff
  unfold fetchVertex at fetched
  simp only at fetched
  constructor
  · rintro rfl
    split at fetched
    · next existing reusable =>
        cases fetched
        have fetchable := List.find?_some reusable
        exact ((isFetchable_iff forest listed many).mp fetchable).2
    · cases fetched
      exact absurd free.hangsOff.lt_size (Nat.lt_irrefl _)
  · intro marked
    have reusable := ordered.find?_eq listed
      ((isFetchable_iff forest listed many).mpr ⟨free, marked⟩) fun other member fetchable =>
        oldest ((isFetchable_iff forest member many).mp fetchable).1
    rw [reusable] at fetched
    cases fetched
    rfl

/-- A contributor that is given a free edge asks for it. -/
theorem FreeBelow.eq_of_seats
    {contributor : Contributor}
    {above : VertexId}
    (free : before.FreeBelow parent name id)
    (seats : before.Seats contributor above id after) :
    above = parent ∧ contributor.field = name := by
  have present := free.hangsOff.lt_size
  obtain ⟨edge, found, hangs, field, -⟩ := free
  obtain ⟨-, -, ⟨new, -⟩ | ⟨shared, sharedFound, sharedHangs, fits, -⟩⟩ := seats
  · rw [new] at present
    exact absurd present (Nat.lt_irrefl _)
  · cases found.symm.trans sharedFound
    exact ⟨Option.some.inj (sharedHangs.symm.trans hangs),
      Option.some.inj (fits.field.symm.trans field)⟩

theorem FreeBelow.evolves
    (free : before.FreeBelow parent name id)
    (evolves : before.Evolves after) :
    after.FreeBelow parent name id := by
  obtain ⟨edge, edgeFound, hangs, field, merges, unconditioned⟩ := free
  obtain ⟨vertex, found, rfl⟩ := edge?_eq_some.mp edgeFound
  obtain ⟨later, laterFound, becomes⟩ := evolves id vertex found
  refine ⟨_, edge?_of_vertex? laterFound, becomes.parent.trans hangs, becomes.field.trans field, ?_,
    becomes.on.trans unconditioned⟩
  change vertex.mode.isNew = false at merges
  change later.mode.isNew = false
  rcases becomes.mode with same | ⟨-, required⟩
  · rw [same, merges]
  · rw [required, JoinMode.isNew_toRequired, merges]

/-- A free edge leads over a collection. -/
structure Collects
    (graph : JoinGraph)
    (schema : Schema)
    (parent : VertexId)
    (name : String)
    (id : VertexId) : Prop where
  free : graph.FreeBelow parent name id
  many : ∀ {field}, schema.requireField (Graphing.typeOf graph parent) name = .ok field ->
    field.isToOne = false

/-- An edge leads over a collection still when fetches are merged. -/
theorem Collects.later
    {schema : Schema}
    {tree : Tree}
    {start : JoinGraph}
    {state : GraphState}
    (collects : start.Collects schema parent name id)
    (fetches : GraphState.Fetches schema tree { graph := start } state)
    (forest : start.Forest) :
    state.graph.Collects schema parent name id where
  free := collects.free.evolves fetches.evolves
  many {field} required := by
    have hangs := collects.free.hangsOff
    have present := Nat.lt_trans (forest.older hangs) hangs.lt_size
    obtain ⟨history, tells⟩ := fetches.tells
    rw [(tells.steps.grows).typeOf_eq present] at required
    exact collects.many required

end JoinGraph

namespace GraphState

variable {schema : Schema} {tree : Tree} {start : JoinGraph} {before after : GraphState}

theorem FetchStep.ordered
    (step : before.FetchStep schema tree after)
    (forest : before.graph.Forest)
    (ordered : before.graph.Ordered) :
    after.graph.Ordered := by
  obtain ⟨event, done⟩ := step.step
  exact ordered.step forest done

/-- A step that adds a fetch to the declared ones gives it a vertex. -/
theorem FetchStep.gives
    {fetch : NodeId}
    {declared : Fetch}
    (step : before.FetchStep schema tree after)
    (forest : before.graph.Forest)
    (isFetch : tree.fetch? fetch = some declared)
    (keys : after.declared.keys = before.declared.keys ++ [fetch]) :
    ∃ parent id field target graph, after.declared.find? fetch = some id ∧
      after.graph.HangsOff id parent ∧
      schema.requireField (Graphing.typeOf before.graph parent) declared.field = .ok field ∧
      before.graph.fetchVertex parent field target declared.direction declared.collection =
        (id, graph) := by
  obtain @⟨other, body, parent, id, field, target, graph, isOther, fresh, older, required, -,
    fetched⟩ := step
  rw [DeclarationMap.keys_insert_of_not_mem _ fresh] at keys
  cases List.append_cancel_left keys
  cases isFetch.symm.trans isOther
  have stepHere : before.graph.Step (.granted (.fetch fetch declared) parent id)
      (graph.setFetched id) :=
    .of_fetchVertex older (Schema.name_of_requireField required) fetched
  have effect := stepHere.effect forest
  exact ⟨parent, id, field, target, graph, DeclarationMap.find?_insert_self _ _ _,
    effect.edges.2.mpr (Or.inr ⟨rfl, rfl⟩), required, fetched⟩

namespace Fetches

theorem ordered
    (fetches : before.Fetches schema tree after)
    (forest : before.graph.Forest)
    (ordered : before.graph.Ordered) :
    after.graph.Ordered := by
  induction fetches with
  | refl => exact ordered
  | tail earlier step inductionHypothesis =>
      exact step.ordered (Fetches.forest earlier forest) inductionHypothesis

theorem keys_prefix (fetches : before.Fetches schema tree after) :
    before.declared.keys <+: after.declared.keys := by
  induction fetches with
  | refl => exact List.prefix_rfl
  | tail _ step inductionHypothesis =>
      obtain ⟨-, fresh, -, -, -, -⟩ := step
      rw [DeclarationMap.keys_insert_of_not_mem _ fresh]
      exact inductionHypothesis.trans (List.prefix_append _ _)

/-- A run of fetches splits at each of them. -/
theorem split
    {fetch : NodeId}
    (fetches : before.Fetches schema tree after)
    (fresh : fetch ∉ before.declared.keys)
    (known : fetch ∈ after.declared.keys) :
    ∃ earlier later, before.Fetches schema tree earlier ∧ earlier.FetchStep schema tree later ∧
      later.Fetches schema tree after ∧ fetch ∉ earlier.declared.keys ∧
      later.declared.keys = earlier.declared.keys ++ [fetch] := by
  induction fetches with
  | refl => exact absurd known fresh
  | @tail between last done step inductionHypothesis =>
      by_cases met : fetch ∈ between.declared.keys
      · obtain ⟨earlier, later, first, here, rest, new, keys⟩ := inductionHypothesis met
        exact ⟨earlier, later, first, here, rest.tail step, new, keys⟩
      · refine ⟨between, last, done, step, .refl, met, ?_⟩
        obtain ⟨-, freshHere, -, -, -, -⟩ := step
        rcases DeclarationMap.mem_keys_insert.mp known with rfl | old
        · exact DeclarationMap.keys_insert_of_not_mem _ freshHere
        · exact absurd old met

/-- The edges that were there before all fetches are the oldest ones. -/
theorem index_le
    {parent place other : VertexId}
    {name : String}
    (fetches : GraphState.Fetches schema tree { graph := start } after)
    (forest : start.Forest)
    (sole : start.Sole Vertex.Free)
    (free : start.FreeBelow parent name place)
    (later : after.graph.FreeBelow parent name other) :
    place.index ≤ other.index := by
  by_cases older : other.index < start.size
  · have old := (fetches.spares forest).older later older
    exact Nat.le_of_eq (congrArg VertexId.index (free.eq_of_sole sole old))
  · have present := free.hangsOff.lt_size
    omega

end Fetches

section Reuse

variable {parent place : VertexId} {name : String} (forest : start.Forest)
  (ordered : start.Ordered) (sole : start.Sole Vertex.Free)
  (collects : start.Collects schema parent name place)

include forest ordered sole collects

/-- A fetch of the whole of a collection is given an edge that was there before all fetches exactly
when that edge is fetched by then. -/
theorem Fetches.fetchVertex_iff
    {id : VertexId}
    {field : Field}
    {target : String}
    {direction : JoinDirection}
    {graph : JoinGraph}
    (fetches : GraphState.Fetches schema tree { graph := start } before)
    (required : schema.requireField (Graphing.typeOf before.graph parent) name = .ok field)
    (fetched : before.graph.fetchVertex parent field target direction .all = (id, graph)) :
    id = place ↔ before.graph.Marked Vertex.fetched place := by
  have later := collects.later fetches forest
  have free := later.free
  have oldest : ∀ {other}, before.graph.FreeBelow parent name other -> place.index ≤ other.index :=
    fetches.index_le forest sole collects.free
  rw [← Schema.name_of_requireField required] at free oldest
  exact JoinGraph.fetchVertex_whole (fetches.forest forest) (fetches.ordered forest ordered)
    (later.many required) free oldest fetched

/-- A step loads an edge over a collection that was there before all fetches when the edge is
fetched already, or when the step fetches part of the collection through it. -/
theorem FetchStep.marked_iff
    (fetches : GraphState.Fetches schema tree { graph := start } before)
    (step : before.FetchStep schema tree after) :
    after.graph.Marked Vertex.fetched place ↔ before.graph.Marked Vertex.fetched place ∨
      ∃ other, other ∉ before.declared.keys ∧ after.declared.LoadsPart tree name place other := by
  obtain @⟨fetch, declared, above, id, field, target, graph, isFetch, fresh, older, required, -,
    fetched⟩ := step
  have stepHere : before.graph.Step (.granted (.fetch fetch declared) above id)
      (graph.setFetched id) :=
    .of_fetchVertex older (Schema.name_of_requireField required) fetched
  have effect := stepHere.effect (Fetches.forest fetches forest)
  rw [effect.fetched]
  constructor
  · rintro (old | ⟨-, rfl⟩)
    · exact Or.inl old
    · obtain ⟨rfl, rfl⟩ := (collects.later fetches forest).free.eq_of_seats effect.edges.1
      cases extent : declared.collection with
      | partially =>
          exact Or.inr ⟨fetch, fresh, declared, isFetch, extent, rfl,
            DeclarationMap.find?_insert_self _ _ _⟩
      | all =>
          rw [extent] at fetched
          exact Or.inl
            ((fetches.fetchVertex_iff forest ordered sole collects required fetched).mp rfl)
  · rintro (old | ⟨other, new, otherDeclared, -, -, -, found⟩)
    · exact Or.inl old
    · rcases DeclarationMap.inserted_or_found found with ⟨-, rfl⟩ | known
      · exact Or.inr ⟨rfl, rfl⟩
      · exact absurd (DeclarationMap.mem_keys_of_find? known) new

/-- An edge over a collection that was there before all fetches is fetched when one of them loads
part of the collection through it. -/
theorem Fetches.marked_iff
    (fetches : GraphState.Fetches schema tree { graph := start } after)
    (unfetched : ¬ start.Marked Vertex.fetched place) :
    after.graph.Marked Vertex.fetched place ↔
      ∃ other, after.declared.LoadsPart tree name place other := by
  induction fetches with
  | refl =>
      refine iff_of_false unfetched ?_
      rintro ⟨other, loads⟩
      exact List.not_mem_nil loads.mem_keys
  | @tail before after earlier step inductionHypothesis =>
      rw [step.marked_iff forest ordered sole collects earlier, inductionHypothesis]
      constructor
      · rintro (⟨other, loads⟩ | ⟨other, -, loads⟩)
        · exact ⟨other, loads.extend step.keeps⟩
        · exact ⟨other, loads⟩
      · rintro ⟨other, loads⟩
        by_cases old : other ∈ before.declared.keys
        · exact Or.inl ⟨other, loads.restrict step.keeps old⟩
        · exact Or.inr ⟨other, old, loads⟩

/-- A fetch of the whole of a collection is given an edge that was there before all fetches exactly
when an earlier one loads part of the collection through the edge. -/
theorem Fetches.whole_iff
    {fetch : NodeId}
    {declared : Fetch}
    {id : VertexId}
    (fetches : GraphState.Fetches schema tree { graph := start } after)
    (unfetched : ¬ start.Marked Vertex.fetched place)
    (isFetch : tree.fetch? fetch = some declared)
    (whole : declared.collection = .all)
    (isField : declared.field = name)
    (found : after.declared.find? fetch = some id)
    (hangs : after.graph.HangsOff id parent) :
    id = place ↔
      ∃ other ∈ after.declared.before fetch, after.declared.LoadsPart tree name place other := by
  obtain ⟨earlier, later, first, step, rest, fresh, keys⟩ :=
    fetches.split List.not_mem_nil (DeclarationMap.mem_keys_of_find? found)
  have before : after.declared.before fetch = earlier.declared.keys := by
    obtain ⟨more, allKeys⟩ := rest.keys_prefix
    rw [keys, List.append_assoc, List.singleton_append] at allKeys
    exact DeclarationMap.before_of_append allKeys.symm fresh
  have kept := step.keeps.trans rest.keeps
  obtain ⟨above, vertex, field, target, graph, placed, hangsHere, required, fetched⟩ :=
    step.gives (first.forest forest) isFetch keys
  cases found.symm.trans (rest.keeps _ _ placed)
  cases hangs.unique (rest.evolves.hangsOff hangsHere)
  rw [isField] at required
  rw [whole] at fetched
  rw [first.fetchVertex_iff forest ordered sole collects required fetched, before,
    first.marked_iff forest ordered sole collects unfetched]
  constructor
  · rintro ⟨other, loads⟩
    exact ⟨other, loads.mem_keys, loads.extend kept⟩
  · rintro ⟨other, member, loads⟩
    exact ⟨other, loads.restrict kept member⟩

end Reuse

end GraphState
end QueryGraph
