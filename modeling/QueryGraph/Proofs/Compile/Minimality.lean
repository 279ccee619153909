import Mathlib
import QueryGraph.Proofs.Compile.History
import QueryGraph.Proofs.Graph.Spares

/-!
# How many edges lead over one relation

Joins, navigations and fetches share what they can. Over one relation at most one edge with a
condition leads from a vertex of a result, and at most one without, unless the whole of a
collection is fetched next to an edge that is not.
-/

namespace QueryGraph

namespace JoinGraph

/-- The vertices below another one over a relation whose edges do not belong to their source
alone, either those with a condition or those without. -/
def siblings
    (graph : JoinGraph)
    (parent : VertexId)
    (name : String)
    (conditioned : Bool) : List VertexId :=
  (graph.children parent).filter fun child =>
    (graph.vertex? child).any fun vertex =>
      vertex.field = some name && !vertex.mode.isNew && vertex.on.isSome == conditioned

variable {graph : JoinGraph} {parent id : VertexId} {name : String} {conditioned : Bool}

theorem mem_siblings
    (forest : graph.Forest) :
    id ∈ graph.siblings parent name conditioned ↔
      ∃ edge, graph.edge? id = some edge ∧ edge.parent = some parent ∧ edge.field = some name ∧
        edge.mode.isNew = false ∧ edge.on.isSome = conditioned := by
  unfold siblings
  simp only [List.mem_filter, forest.listed, Option.any_eq_true, Bool.and_eq_true,
    decide_eq_true_eq, Bool.not_eq_true', beq_iff_eq, and_assoc]
  constructor
  · rintro ⟨⟨vertex, found, hangs⟩, again, foundAgain, field, merges, on⟩
    rw [found] at foundAgain
    cases foundAgain
    exact ⟨_, edge?_of_vertex? found, hangs, field, merges, on⟩
  · rintro ⟨edge, edgeFound, hangs, field, merges, on⟩
    obtain ⟨vertex, found, rfl⟩ := edge?_eq_some.mp edgeFound
    exact ⟨⟨vertex, found, hangs⟩, vertex, found, field, merges, on⟩

theorem mem_siblings_false
    (forest : graph.Forest) :
    id ∈ graph.siblings parent name false ↔ graph.FreeBelow parent name id := by
  rw [mem_siblings forest]
  simp only [FreeBelow, Vertex.Free, Option.isSome_eq_false_iff, Option.isNone_iff_eq_none]

end JoinGraph

/-- Vertices in the order of their creation are at most one when no two of them differ. -/
theorem VertexId.length_le_one
    {ids : List VertexId}
    (sorted : ids.Pairwise fun first second => first.index < second.index)
    (same : ∀ first ∈ ids, ∀ second ∈ ids, first = second) :
    ids.length ≤ 1 := by
  match ids, sorted, same with
  | [], _, _ => exact Nat.zero_le 1
  | [_], _, _ => exact Nat.le_refl 1
  | first :: second :: rest, sorted, same =>
      have before := (List.pairwise_cons.mp sorted).1 second List.mem_cons_self
      rw [same first List.mem_cons_self second (List.mem_cons_of_mem _ List.mem_cons_self)] at before
      exact absurd before (Nat.lt_irrefl _)

namespace CompiledGraph

/-- A vertex of a result was added for a fetch. Nothing but fetches leads to it, and this one
was the first. -/
def AddedFor
    (compiled : CompiledGraph)
    (tree : Tree)
    (id : VertexId)
    (fetch : NodeId) : Prop :=
  compiled.fetches.first? id = some fetch ∧
    ∀ contributor, compiled.Contributes tree id contributor -> contributor.isFetch = true

/-- No more edges than needed lead from a vertex of a result over a relation. -/
structure Minimal
    (compiled : CompiledGraph)
    (schema : Schema)
    (tree : Tree)
    (parent : VertexId)
    (name : String) : Prop where
  conditioned : (compiled.graph.siblings parent name true).length ≤ 1
  free : (compiled.graph.siblings parent name false).length ≤ 2
  toOne : ∀ field, schema.requireField (Graphing.typeOf compiled.graph parent) name = .ok field ->
    field.isToOne = true -> (compiled.graph.siblings parent name false).length ≤ 1
  later : ∀ first second, compiled.graph.siblings parent name false = [first, second] ->
    first.index < second.index ∧ compiled.graph.Marked Vertex.fetched second ∧
      ∃ fetch declared, compiled.AddedFor tree second fetch ∧
        tree.fetch? fetch = some declared ∧ declared.collection = .all
  navigations : ∀ first second, compiled.Contributes tree first (.navigation name) ->
    compiled.Contributes tree second (.navigation name) ->
    compiled.graph.HangsOff first parent -> compiled.graph.HangsOff second parent ->
    first = second

end CompiledGraph

namespace Tree.Course

variable {tree : Tree} {schema : Schema} {config : CompilerConfig} {owner : Owner}
  {compiled : CompiledGraph} {walk : Walk} {graph : JoinGraph} {fetched : GraphState}
  {walked followed : List GraphEvent}
  (course : tree.Course schema config owner compiled walk graph fetched walked followed)

include course

theorem oneShared_walked : walk.sources.graph.OneShared :=
  course.recounts.steps.oneShared fun {contributor _ _} member => by
    obtain ⟨_, _, rfl, -⟩ := course.recounts.declaredBy member
    rfl

theorem navigation_of_granted
    {contributor : Contributor}
    {parent id : VertexId}
    (member : GraphEvent.granted contributor parent id ∈ followed) :
    ∃ name, contributor = .navigation name := by
  obtain ⟨name, same, -⟩ := course.navigations.mp ⟨parent, member⟩
  exact ⟨name, same⟩

/-- Before fetches are merged, at most one edge without a condition may be shared over each
relation. -/
theorem sole_free_followed : graph.Sole Vertex.Free :=
  course.steps.sole_free course.forest_walked course.oneShared_walked.free
    course.navigation_of_granted

theorem sole_conditioned_fetched : fetched.graph.Sole Vertex.Conditioned := by
  obtain ⟨loaded, tells⟩ := course.fetches.tells
  have followedSole : graph.Sole Vertex.Conditioned := by
    refine course.steps.sole_conditioned course.forest_walked course.oneShared_walked.conditioned ?_
    intro contributor parent id member
    obtain ⟨name, rfl⟩ := course.navigation_of_granted member
    rfl
  refine tells.steps.sole_conditioned course.forest_followed followedSole ?_
  intro contributor parent id member
  obtain ⟨_, _, _, _, same, -⟩ := tells.declaredBy member
  cases same
  rfl

/-- A vertex that was not there when the paths were compiled is there for fetches alone. -/
theorem isFetch_of_contributes
    {id : VertexId}
    {contributor : Contributor}
    (newer : graph.size ≤ id.index)
    (contributes : compiled.Contributes tree id contributor) :
    contributor.isFetch = true := by
  cases contributor with
  | fetch fetch declared => rfl
  | join source declared =>
      obtain ⟨isJoin, found⟩ := contributes
      rw [course.result] at found
      have present := course.recounts.present found
      have grown := course.steps.size_le course.forest_walked
      omega
  | navigation name =>
      obtain ⟨parent, member⟩ := course.navigations.mpr ⟨name, rfl, contributes⟩
      have present := course.steps.present course.forest_walked member
      change id.index < graph.size at present
      omega

theorem sorted
    (parent : VertexId)
    (name : String)
    (conditioned : Bool) :
    (compiled.graph.siblings parent name conditioned).Pairwise fun first second =>
      first.index < second.index :=
  (course.ordered_compiled parent).filter _

variable {parent first second : VertexId} {name : String}

theorem freeBelow_of_mem_siblings
    (member : first ∈ compiled.graph.siblings parent name false) :
    fetched.graph.FreeBelow parent name first := by
  obtain ⟨edge, found, rest⟩ := (JoinGraph.mem_siblings_false course.forest_compiled).mp member
  rw [course.edge?_eq] at found
  exact ⟨edge, found, rest⟩

/-- Of two edges without a condition over one relation, the later one was added for the fetch of
the whole of a collection. -/
theorem addedFor_of_lt
    (firstMember : first ∈ compiled.graph.siblings parent name false)
    (secondMember : second ∈ compiled.graph.siblings parent name false)
    (earlier : first.index < second.index) :
    compiled.graph.Marked Vertex.fetched second ∧
      (∃ fetch declared, compiled.AddedFor tree second fetch ∧
        tree.fetch? fetch = some declared ∧ declared.collection = .all) ∧
      ∀ {field}, schema.requireField (Graphing.typeOf compiled.graph parent) name = .ok field ->
        field.isToOne = false := by
  obtain ⟨newer, isFetched, fetch, declared, found, isFetch, whole, many⟩ :=
    (course.fetches.spares course.forest_followed).added_of_lt course.sole_free_followed
      (course.freeBelow_of_mem_siblings firstMember)
      (course.freeBelow_of_mem_siblings secondMember) earlier
  have first? : compiled.fetches.first? second = some fetch := by
    rw [course.result]
    exact found
  refine ⟨?_, ⟨fetch, declared, ⟨first?, ?_⟩, isFetch, whole⟩, ?_⟩
  · rw [course.graph_eq]
    exact (JoinGraph.marked_assignLabels fun _ _ _ => rfl).mpr isFetched
  · exact fun contributor => course.isFetch_of_contributes newer
  · intro field required
    rw [course.typeOf_eq] at required
    exact many required

/-- A navigation is given an edge without a condition. -/
theorem mem_siblings_of_navigation
    (contributes : compiled.Contributes tree first (.navigation name))
    (hangs : compiled.graph.HangsOff first parent) :
    first ∈ compiled.graph.siblings parent name false := by
  obtain ⟨history, tells⟩ := course.tells
  obtain ⟨edge, found, above⟩ := JoinGraph.hangsOff_iff.mp hangs
  have aggregates := tells.chronicle.aggregates found above
  have asks := tells.asks.mpr contributes
  refine (JoinGraph.mem_siblings course.forest_compiled).mpr
    ⟨edge, found, above, aggregates.field asks, (aggregates.isNew asks).symm, ?_⟩
  cases on : edge.on with
  | none => rfl
  | some condition =>
      obtain ⟨other, otherAsks, carries⟩ := aggregates.on.mp on
      have exclusive : other.isExclusive = true := by simp [Contributor.isExclusive, carries]
      rw [← aggregates.alone otherAsks asks exclusive] at carries
      cases carries

theorem length_conditioned : (compiled.graph.siblings parent name true).length ≤ 1 := by
  refine VertexId.length_le_one (course.sorted parent name _)
    fun first firstMember second secondMember => ?_
  obtain ⟨edge, found, hangs, field, conditioned⟩ :=
    (JoinGraph.mem_siblings course.forest_compiled).mp firstMember
  obtain ⟨other, otherFound, otherHangs, otherField, otherConditioned⟩ :=
    (JoinGraph.mem_siblings course.forest_compiled).mp secondMember
  rw [course.edge?_eq] at found otherFound
  exact course.sole_conditioned_fetched.eq found otherFound hangs otherHangs
    (field.trans otherField.symm) conditioned otherConditioned

theorem length_free : (compiled.graph.siblings parent name false).length ≤ 2 := by
  have free : ∀ {id}, id ∈ compiled.graph.siblings parent name false ->
      fetched.graph.FreeBelow parent name id := course.freeBelow_of_mem_siblings
  have sorted := course.sorted parent name false
  match shape : compiled.graph.siblings parent name false with
  | [] => exact Nat.zero_le 2
  | [_] => exact Nat.le_succ 1
  | [_, _] => exact Nat.le_refl 2
  | first :: second :: third :: rest =>
      rw [shape] at sorted
      simp only [shape, List.mem_cons] at free
      obtain ⟨beforeAll, laterSorted⟩ := List.pairwise_cons.mp sorted
      have earlier := beforeAll second List.mem_cons_self
      have later := (List.pairwise_cons.mp laterSorted).1 third List.mem_cons_self
      exact ((course.fetches.spares course.forest_followed).not_three course.sole_free_followed
        (free (Or.inl rfl)) (free (Or.inr (Or.inl rfl))) (free (Or.inr (Or.inr (Or.inl rfl))))
        earlier later).elim

/-- Every graph node has no more edges over a relation than needed. -/
theorem minimal
    (parent : VertexId)
    (name : String) :
    compiled.Minimal schema tree parent name where
  conditioned := course.length_conditioned
  free := course.length_free
  toOne field required toOne := by
    refine VertexId.length_le_one (course.sorted parent name _)
      fun first firstMember second secondMember => ?_
    have apart : ∀ {low high}, low ∈ compiled.graph.siblings parent name false ->
        high ∈ compiled.graph.siblings parent name false -> ¬ low.index < high.index := by
      intro low high lowMember highMember earlier
      obtain ⟨-, -, many⟩ := course.addedFor_of_lt lowMember highMember earlier
      rw [many required] at toOne
      cases toOne
    have notBefore := apart firstMember secondMember
    have notAfter := apart secondMember firstMember
    exact VertexId.index_eq_iff.mp (by omega)
  later first second shape := by
    have sorted := course.sorted parent name false
    rw [shape] at sorted
    have earlier := (List.pairwise_cons.mp sorted).1 second List.mem_cons_self
    have firstMember : first ∈ compiled.graph.siblings parent name false := by simp [shape]
    have secondMember : second ∈ compiled.graph.siblings parent name false := by simp [shape]
    obtain ⟨isFetched, addedFor, -⟩ := course.addedFor_of_lt firstMember secondMember earlier
    exact ⟨earlier, isFetched, addedFor⟩
  navigations first second firstNavigates secondNavigates firstHangs secondHangs := by
    have apart : ∀ {low high}, compiled.Contributes tree low (.navigation name) ->
        compiled.graph.HangsOff low parent -> compiled.Contributes tree high (.navigation name) ->
        compiled.graph.HangsOff high parent -> ¬ low.index < high.index := by
      intro low high lowNavigates lowHangs highNavigates highHangs earlier
      obtain ⟨-, ⟨_, _, ⟨-, fetchesOnly⟩, -⟩, -⟩ := course.addedFor_of_lt
        (course.mem_siblings_of_navigation lowNavigates lowHangs)
        (course.mem_siblings_of_navigation highNavigates highHangs) earlier
      cases fetchesOnly _ highNavigates
    have notBefore := apart firstNavigates firstHangs secondNavigates secondHangs
    have notAfter := apart secondNavigates secondHangs firstNavigates firstHangs
    exact VertexId.index_eq_iff.mp (by omega)

end Tree.Course

namespace Tree

/-- Over each relation, a vertex of a result has at most one edge with a condition, and at most
one without one when the relation leads to one record. Over a collection it has at most two
without one, and the later of these was added for a fetch of the whole collection. Navigations
over one relation from one vertex share their edge. -/
theorem compiled_minimal
    {tree held : Tree}
    {schema : Schema}
    {config : CompilerConfig}
    {owner : Owner}
    {compiled : CompiledGraph}
    (reachable : tree.Reachable)
    (done : tree.compile schema config owner = (.ok compiled, held))
    (parent : VertexId)
    (name : String) :
    compiled.Minimal schema tree parent name := by
  obtain ⟨walk, graph, fetched, walked, followed, course⟩ := compile_course reachable done
  exact course.minimal parent name

/-- Teams with their members. -/
def squads : Schema :=
  ⟨⟨[("Team", .ofFields "Team" [.relation "members" "Employee" .oneToMany false]),
    ("Employee", .ofFields "Employee" [.scalar "name"])]⟩⟩

/-- A join with a condition, a navigation that passes it by, and a fetch of every member. -/
def squadMembers : Tree :=
  (ofKind .query).performAll [
    .build (.root top "Team"),
    .build (.join ⟨1⟩ "members" .left .optionallyMergeExisting),
    .build (.literal (.bool true)),
    .build (.setOn ⟨2⟩ ⟨3⟩),
    .build (.access ⟨1⟩ "members"),
    .build (.access ⟨4⟩ "name"),
    .build (.select top ⟨5⟩),
    .build (.fetch ⟨1⟩ "members" .left .all)]

/-- Three edges lead over the relation, and the last one was added for the fetch. -/
theorem squadMembers_minimal :
    ∃ compiled held,
      squadMembers.compile squads {} ⟨8⟩ = (.ok compiled, held) ∧
        compiled.graph.siblings ⟨0⟩ "members" true = [⟨1⟩] ∧
        compiled.graph.siblings ⟨0⟩ "members" false = [⟨2⟩, ⟨3⟩] ∧
        compiled.Minimal squads squadMembers ⟨0⟩ "members" := by
  have succeeds : ((squadMembers.compile squads {} ⟨8⟩).1.toOption.any fun compiled =>
      decide (compiled.graph.siblings ⟨0⟩ "members" true = [⟨1⟩] ∧
        compiled.graph.siblings ⟨0⟩ "members" false = [⟨2⟩, ⟨3⟩])) = true := by
    cbv
  obtain ⟨compiled, held, done, edges⟩ := exists_compiled succeeds
  obtain ⟨conditioned, free⟩ := of_decide_eq_true edges
  exact ⟨compiled, held, done, conditioned, free,
    compiled_minimal ⟨.query, _, rfl⟩ done ⟨0⟩ "members"⟩

end Tree
end QueryGraph
