import QueryGraph.Proofs.Compile.Fetches
import QueryGraph.Proofs.Compile.Minimality
import QueryGraph.Proofs.Graph.Reuse

/-!
# Fetches of whole collections

A fetch of the whole of a collection is given a vertex that a join or a navigation leads to
exactly when part of the collection is fetched through that vertex earlier.
-/

namespace QueryGraph

namespace CompiledGraph

/-- A declared join or a navigation leads to a vertex. -/
def Joined (compiled : CompiledGraph) (tree : Tree) (id : VertexId) : Prop :=
  ∃ contributor, compiled.Contributes tree id contributor ∧ contributor.isFetch = false

/-- A declared fetch loads the whole of a collection through a vertex below another one. -/
structure LoadsWhole
    (compiled : CompiledGraph)
    (schema : Schema)
    (tree : Tree)
    (fetch : NodeId)
    (declared : Fetch)
    (parent id : VertexId) : Prop where
  isFetch : tree.fetch? fetch = some declared
  whole : declared.collection = .all
  merged : compiled.fetches.find? fetch = some id
  hangs : compiled.graph.HangsOff id parent
  many : ∃ field, schema.requireField (Graphing.typeOf compiled.graph parent) declared.field =
    .ok field ∧ field.isToOne = false

end CompiledGraph

namespace Tree.Course

variable {tree : Tree} {schema : Schema} {config : CompilerConfig} {owner : Owner}
  {compiled : CompiledGraph} {walk : Walk} {graph : JoinGraph} {fetched : GraphState}
  {walked followed : List GraphEvent}
  (course : tree.Course schema config owner compiled walk graph fetched walked followed)

include course

/-- Nothing is fetched before fetches are merged. -/
theorem unfetched (id : VertexId) : ¬ graph.Marked Vertex.fetched id := by
  intro marked
  have chronicle := (course.recounts.steps.trans course.steps).chronicle
  obtain ⟨event, member, isFetch, -⟩ := chronicle.fetched.mp marked
  cases event with
  | granted contributor parent place =>
      rcases List.mem_append.mp member with isFollowed | isWalked
      · obtain ⟨name, rfl⟩ := course.navigation_of_granted isFollowed
        cases isFetch
      · obtain ⟨_, _, rfl, -⟩ := course.recounts.declaredBy isWalked
        cases isFetch
  | _ => cases isFetch

variable {fetch : NodeId} {declared : Fetch} {parent id place : VertexId}
  (whole : compiled.LoadsWhole schema tree fetch declared parent id)

/-- A joined vertex that a fetch shares was there before fetches are merged. -/
theorem freeBelow_of_joined
    {other : NodeId}
    {body : Fetch}
    (joined : compiled.Joined tree place)
    (contributes : compiled.Contributes tree place (.fetch other body))
    (hangs : compiled.graph.HangsOff place parent) :
    graph.FreeBelow parent body.field place := by
  obtain ⟨history, tells⟩ := course.tells
  obtain ⟨vertex, found, above⟩ := hangs
  obtain ⟨field, unconditioned, shared⟩ :=
    tells.shares found (by simp [Vertex.isRoot, above]) contributes
  have free : fetched.graph.FreeBelow parent body.field place :=
    ⟨_, (course.edge?_eq place).symm.trans (JoinGraph.edge?_of_vertex? found), above, field, shared,
      unconditioned⟩
  refine (course.fetches.spares course.forest_followed).older free (Nat.not_le.mp fun newer => ?_)
  obtain ⟨contributor, asks, joins⟩ := joined
  rw [course.isFetch_of_contributes newer asks] at joins
  cases joins

include whole

/-- A free edge that is a sibling of one for the whole of a collection leads over a collection. -/
theorem collects_of_freeBelow (free : graph.FreeBelow parent declared.field place) :
    graph.Collects schema parent declared.field place where
  free := free
  many {field} required := by
    obtain ⟨loaded, tells⟩ := course.fetches.tells
    obtain ⟨found, foundHere, many⟩ := whole.many
    have hangs := free.hangsOff
    have present := Nat.lt_trans (course.forest_followed.older hangs) hangs.lt_size
    rw [course.typeOf_eq, tells.steps.grows.typeOf_eq present, required] at foundHere
    cases foundHere
    exact many

/-- A fetch of the whole of a collection is given a joined vertex exactly when part of it was
fetched there. -/
theorem whole_iff
    (joined : compiled.Joined tree place)
    (hangs : compiled.graph.HangsOff place parent) :
    id = place ↔ ∃ other ∈ compiled.fetches.before fetch,
      compiled.fetches.LoadsPart tree declared.field place other := by
  have fetches : compiled.fetches = fetched.declared := by
    rw [course.result]
    rfl
  have iff : graph.FreeBelow parent declared.field place -> (id = place ↔
      ∃ other ∈ compiled.fetches.before fetch,
        compiled.fetches.LoadsPart tree declared.field place other) := by
    intro free
    rw [fetches]
    refine course.fetches.whole_iff course.forest_followed course.ordered_followed
      course.sole_free_followed (course.collects_of_freeBelow whole free) (course.unfetched place)
      whole.isFetch whole.whole rfl ?_ ?_
    · rw [← fetches]
      exact whole.merged
    · rw [← JoinGraph.hangsOff_eq course.edge?_eq]
      exact whole.hangs
  constructor
  · rintro rfl
    exact (iff (course.freeBelow_of_joined joined ⟨whole.isFetch, whole.merged⟩ hangs)).mp rfl
  · rintro ⟨other, member, loads⟩
    obtain ⟨body, isFetch, part, field, merged⟩ := loads
    have free := course.freeBelow_of_joined joined ⟨isFetch, merged⟩ hangs
    rw [field] at free
    exact (iff free).mpr ⟨other, member, body, isFetch, part, field, merged⟩

end Tree.Course

namespace Tree

variable {tree held : Tree} {schema : Schema} {config : CompilerConfig} {owner : Owner}
  {compiled : CompiledGraph}

/-- A declared fetch of the whole of a collection is given a vertex that a join or a navigation
leads to exactly when a fetch of part of the collection that is merged before it is given that
vertex. -/
theorem compiled_whole_iff
    {fetch : NodeId}
    {declared : Fetch}
    {parent id place : VertexId}
    (reachable : tree.Reachable)
    (done : tree.compile schema config owner = (.ok compiled, held))
    (whole : compiled.LoadsWhole schema tree fetch declared parent id)
    (joined : compiled.Joined tree place)
    (hangs : compiled.graph.HangsOff place parent) :
    id = place ↔ ∃ other ∈ compiled.fetches.before fetch,
      compiled.fetches.LoadsPart tree declared.field place other := by
  obtain ⟨walk, graph, fetched, walked, followed, course⟩ := compile_course reachable done
  exact course.whole_iff whole joined hangs

/-- A joined collection that is fetched as a whole, in part, and as a whole again. -/
def squadRoster : Tree :=
  (ofKind .query).performAll [
    .build (.root top "Team"),
    .build (.join ⟨1⟩ "members" .left .optionallyMergeExisting),
    .build (.fetch ⟨1⟩ "members" .left .all),
    .build (.fetch ⟨1⟩ "members" .left .partially),
    .build (.fetch ⟨1⟩ "members" .left .all),
    .build (.access ⟨2⟩ "name"),
    .build (.select top ⟨6⟩)]

/-- The first fetch of the whole has a vertex of its own, and the second one that of the join. -/
theorem exists_squadRoster :
    ∃ compiled held first second,
      squadRoster.compile squads {} ⟨8⟩ = (.ok compiled, held) ∧
        compiled.Joined squadRoster ⟨1⟩ ∧
        compiled.LoadsWhole squads squadRoster ⟨3⟩ first ⟨0⟩ ⟨2⟩ ∧ first.field = "members" ∧
        compiled.LoadsWhole squads squadRoster ⟨5⟩ second ⟨0⟩ ⟨1⟩ ∧ second.field = "members" := by
  have succeeds : ((squadRoster.compile squads {} ⟨8⟩).1.toOption.any fun compiled =>
      decide (compiled.sources.find? ⟨2⟩ = some ⟨1⟩ ∧ compiled.fetches.find? ⟨3⟩ = some ⟨2⟩ ∧
        compiled.fetches.find? ⟨5⟩ = some ⟨1⟩ ∧
        (compiled.graph.vertex? ⟨1⟩).map Vertex.parent = some (some ⟨0⟩) ∧
        (compiled.graph.vertex? ⟨2⟩).map Vertex.parent = some (some ⟨0⟩) ∧
        Graphing.typeOf compiled.graph ⟨0⟩ = "Team")) = true := by
    cbv
  obtain ⟨compiled, held, done, checks⟩ := exists_compiled succeeds
  obtain ⟨joins, first, second, below, besides, isTeam⟩ := of_decide_eq_true checks
  have isJoin : squadRoster.join? ⟨2⟩ =
      some ⟨⟨1⟩, "members", .left, .optionallyMergeExisting, none, none⟩ := by
    cbv
  have isFirst : squadRoster.fetch? ⟨3⟩ = some ⟨⟨1⟩, "members", .left, .all, []⟩ := by cbv
  have isSecond : squadRoster.fetch? ⟨5⟩ = some ⟨⟨1⟩, "members", .left, .all, []⟩ := by cbv
  have many : ∃ field, squads.requireField (Graphing.typeOf compiled.graph ⟨0⟩) "members" =
      .ok field ∧ field.isToOne = false := by
    rw [isTeam]
    exact ⟨.relation "members" "Employee" .oneToMany false, by cbv, by cbv⟩
  exact ⟨compiled, held, _, _, done, ⟨.join ⟨2⟩ _, ⟨isJoin, joins⟩, rfl⟩,
    ⟨isFirst, rfl, first, Option.map_eq_some_iff.mp besides, many⟩, rfl,
    ⟨isSecond, rfl, second, Option.map_eq_some_iff.mp below, many⟩, rfl⟩

/-- Between the two fetches of the whole, part of the collection is fetched through the join. -/
theorem squadRoster_whole_iff :
    ∃ compiled held first second,
      squadRoster.compile squads {} ⟨8⟩ = (.ok compiled, held) ∧
        compiled.Joined squadRoster ⟨1⟩ ∧ compiled.graph.HangsOff ⟨1⟩ ⟨0⟩ ∧
        compiled.LoadsWhole squads squadRoster ⟨3⟩ first ⟨0⟩ ⟨2⟩ ∧
        (¬ ∃ other ∈ compiled.fetches.before ⟨3⟩,
          compiled.fetches.LoadsPart squadRoster "members" ⟨1⟩ other) ∧
        compiled.LoadsWhole squads squadRoster ⟨5⟩ second ⟨0⟩ ⟨1⟩ ∧
        ∃ other ∈ compiled.fetches.before ⟨5⟩,
          compiled.fetches.LoadsPart squadRoster "members" ⟨1⟩ other := by
  obtain ⟨compiled, held, first, second, done, joined, firstWhole, firstField, secondWhole,
    secondField⟩ := exists_squadRoster
  have reachable : squadRoster.Reachable := ⟨.query, _, rfl⟩
  have hangs := secondWhole.hangs
  have alone := compiled_whole_iff reachable done firstWhole joined hangs
  have shared := compiled_whole_iff reachable done secondWhole joined hangs
  rw [firstField] at alone
  rw [secondField] at shared
  exact ⟨compiled, held, first, second, done, joined, hangs, firstWhole, alone.not.mp (by decide),
    secondWhole, shared.mp rfl⟩

/-- A fetch of the whole of a collection may be given the vertex of a join. -/
theorem squadRoster_shares_join :
    ∃ compiled held fetch declared parent id,
      squadRoster.Reachable ∧ squadRoster.compile squads {} ⟨8⟩ = (.ok compiled, held) ∧
        compiled.LoadsWhole squads squadRoster fetch declared parent id ∧
        compiled.Joined squadRoster id := by
  obtain ⟨compiled, held, _, second, done, joined, -, -, whole, -⟩ := exists_squadRoster
  exact ⟨compiled, held, ⟨5⟩, second, ⟨0⟩, ⟨1⟩, ⟨.query, _, rfl⟩, done, whole, joined⟩

end Tree
end QueryGraph
