import Mathlib.Data.List.Nodup
import QueryGraph.Proofs.Graph.History
import QueryGraph.Proofs.Tree.Listing

/-!
# The declared sources in the history of a graph

When the sources of a statement are built, every event is a root or a declared join, and every
declared join has one event of its own. The vertex of a join is granted below the vertex of the
source that it hangs off. A correlated source has the vertex of the source that it stands for.
-/

namespace QueryGraph

namespace DeclarationMap

/-- Every declaration keeps its vertex. -/
def Extends (before after : DeclarationMap) : Prop :=
  ∀ declaration vertex, before.find? declaration = some vertex ->
    after.find? declaration = some vertex

theorem Extends.refl (map : DeclarationMap) : map.Extends map := fun _ _ found => found

theorem Extends.trans
    {first second third : DeclarationMap}
    (earlier : first.Extends second)
    (later : second.Extends third) :
    first.Extends third :=
  fun declaration vertex found => later declaration vertex (earlier declaration vertex found)

theorem find?_insert_self
    (map : DeclarationMap)
    (declaration : NodeId)
    (vertex : VertexId) :
    (map.insert declaration vertex).find? declaration = some vertex := by
  rw [find?_insert, if_pos rfl]

/-- What is found after an insertion was inserted, or was there. -/
theorem inserted_or_found
    {map : DeclarationMap}
    {declaration other : NodeId}
    {vertex id : VertexId}
    (found : (map.insert declaration vertex).find? other = some id) :
    other = declaration ∧ id = vertex ∨ map.find? other = some id := by
  rw [find?_insert] at found
  split at found
  · next same => exact Or.inl ⟨same, (Option.some.inj found).symm⟩
  · exact Or.inr found

theorem extends_insert
    {map : DeclarationMap}
    {declaration : NodeId}
    {vertex : VertexId}
    (agrees : ∀ {existing}, map.find? declaration = some existing -> existing = vertex) :
    map.Extends (map.insert declaration vertex) := by
  intro other existing found
  rw [find?_insert]
  split
  · next same =>
      rw [same] at found
      rw [agrees found]
  · exact found

theorem extends_insert_of_not_mem
    {map : DeclarationMap}
    {declaration : NodeId}
    (vertex : VertexId)
    (fresh : declaration ∉ map.keys) :
    map.Extends (map.insert declaration vertex) :=
  extends_insert fun found => absurd (mem_keys_of_find? found) fresh

theorem entries_insert_of_not_mem
    {map : DeclarationMap}
    {declaration : NodeId}
    (vertex : VertexId)
    (fresh : declaration ∉ map.keys) :
    (map.insert declaration vertex).entries = map.entries ++ [(declaration, vertex)] := by
  have unknown : map.find? declaration = none := by
    rw [← Option.not_isSome_iff_eq_none]
    exact mt isSome_find?_iff.mp fresh
  exact if_pos (Option.isNone_iff_eq_none.mpr unknown)

theorem entries_insert_of_mem
    {map : DeclarationMap}
    {declaration : NodeId}
    (vertex : VertexId)
    (known : declaration ∈ map.keys) :
    (map.insert declaration vertex).entries = map.entries := by
  obtain ⟨existing, found⟩ := find?_of_mem_keys known
  exact if_neg (by simp [found])

theorem nodup_keys_insert
    {map : DeclarationMap}
    {declaration : NodeId}
    {vertex : VertexId}
    (nodup : map.keys.Nodup) :
    (map.insert declaration vertex).keys.Nodup := by
  unfold keys at nodup ⊢
  by_cases known : declaration ∈ map.keys
  · rwa [entries_insert_of_mem vertex known]
  · rw [entries_insert_of_not_mem vertex known, List.map_append, List.map_singleton,
      ← List.concat_eq_append]
    exact nodup.concat known

/-- Every declaration is listed with the vertex that it is looked up with. -/
def Faithful (map : DeclarationMap) : Prop :=
  ∀ declaration vertex, (declaration, vertex) ∈ map.entries ->
    map.find? declaration = some vertex

/-- A map stays faithful when a declaration is recorded with no other vertex than it had. -/
theorem Faithful.insert
    {map : DeclarationMap}
    {declaration : NodeId}
    {vertex : VertexId}
    (faithful : map.Faithful)
    (agrees : ∀ {existing}, map.find? declaration = some existing -> existing = vertex) :
    (map.insert declaration vertex).Faithful := by
  intro other listed member
  by_cases known : declaration ∈ map.keys
  · rw [entries_insert_of_mem vertex known] at member
    exact extends_insert agrees _ _ (faithful other listed member)
  · rw [entries_insert_of_not_mem vertex known] at member
    rcases List.mem_append.mp member with earlier | last
    · exact extends_insert agrees _ _ (faithful other listed earlier)
    · cases List.mem_singleton.mp last
      exact find?_insert_self map declaration vertex

end DeclarationMap

namespace Tree

/-- Only a source stands for a source. -/
theorem exists_source_of_resolveCorrelation
    {tree : Tree}
    {id outer : NodeId}
    (stands : tree.resolveCorrelation id = .ok outer) :
    ∃ body, tree.node? id = some (.source body) := by
  unfold resolveCorrelation at stands
  rw [resolveFrom] at stands
  cases found : tree.source id with
  | error error =>
      rw [found] at stands
      cases stands
  | ok body => exact ⟨body, source_eq_ok.mp found⟩

theorem resolveCorrelation_of_join?
    {tree : Tree}
    {id : NodeId}
    {declared : JoinDeclaration}
    (isJoin : tree.join? id = some declared) :
    tree.resolveCorrelation id = .ok id := by
  obtain ⟨body, found, kind, -⟩ := join?_eq_some.mp isJoin
  exact resolveCorrelation_of_original found (by simp [Source.isCorrelated, kind])

end Tree

/-- A history recounts the declared sources of a tree. -/
structure GraphState.Recounts
    (state : GraphState)
    (tree : Tree)
    (history : List GraphEvent) : Prop where
  steps : JoinGraph.Steps {} history state.graph
  unreferenced : ∀ {id}, GraphEvent.reference id ∉ history
  declaredBy : ∀ {contributor parent id},
    GraphEvent.granted contributor parent id ∈ history ->
      ∃ source declared, contributor = .join source declared ∧
        tree.join? source = some declared ∧ state.declared.find? source = some id ∧
        state.declared.find? declared.parent = some parent
  granted : ∀ {source declared id}, tree.join? source = some declared ->
    state.declared.find? source = some id ->
      ∃ parent, GraphEvent.granted (.join source declared) parent id ∈ history
  present : ∀ {source id}, state.declared.find? source = some id -> id.index < state.graph.size
  resolved : ∀ {source outer id}, tree.resolveCorrelation source = .ok outer ->
    state.declared.find? source = some id -> state.declared.find? outer = some id
  nodup : state.declared.keys.Nodup
  /-- A declaration that is recorded again has the vertex that it had. -/
  faithful : state.declared.Faithful

/-- An event that a declared source causes. -/
inductive Tree.Causes
    (tree : Tree)
    (state : GraphState)
    (source : NodeId) : GraphEvent -> Prop
  | root
      {body : Source}
      {id : VertexId}
      {recordType : String}
      (found : tree.node? source = some (.source body))
      (isRoot : body.kind = .root recordType) :
      Causes tree state source (.root id)
  | join
      {declared : JoinDeclaration}
      {parent id : VertexId}
      (isJoin : tree.join? source = some declared)
      (above : state.declared.find? declared.parent = some parent) :
      Causes tree state source (.granted (.join source declared) parent id)

theorem Tree.Causes.resolveCorrelation
    {tree : Tree}
    {state : GraphState}
    {source : NodeId}
    {event : GraphEvent}
    (causes : tree.Causes state source event) :
    tree.resolveCorrelation source = .ok source := by
  cases causes with
  | root found isRoot =>
      exact resolveCorrelation_of_original found (by simp [Source.isCorrelated, isRoot])
  | join isJoin => exact resolveCorrelation_of_join? isJoin

namespace GraphState

variable {tree : Tree} {before after : GraphState} {history : List GraphEvent}

theorem recounts_empty (tree : Tree) : Recounts {} tree [] where
  steps := .none
  unreferenced member := by cases member
  declaredBy member := by cases member
  granted _ found := by cases found
  present found := by cases found
  resolved _ found := by cases found
  nodup := List.nodup_nil
  faithful _ _ member := by cases member

/-- A source that was not declared yet is declared with its event. -/
theorem Recounts.declare
    {source : NodeId}
    {event : GraphEvent}
    {graph : JoinGraph}
    (recounts : before.Recounts tree history)
    (causes : tree.Causes before source event)
    (fresh : source ∉ before.declared.keys)
    (step : before.graph.Step event graph) :
    Recounts { graph := graph, declared := before.declared.insert source event.id } tree
      (event :: history) := by
  have effect := step.effect (recounts.steps.forest JoinGraph.forest_empty)
  have kept := DeclarationMap.extends_insert_of_not_mem event.id fresh
  exact {
    steps := .next recounts.steps step
    unreferenced := by
      intro id member
      rcases List.mem_cons.mp member with same | earlier
      · rw [← same] at causes
        cases causes
      · exact recounts.unreferenced earlier
    declaredBy := by
      intro contributor parent id member
      rcases List.mem_cons.mp member with same | earlier
      · rw [← same] at causes
        cases causes with
        | @join declared _ _ isJoin above =>
            refine ⟨source, declared, rfl, isJoin, ?_, kept _ _ above⟩
            rw [← same]
            exact DeclarationMap.find?_insert_self _ _ _
      · obtain ⟨other, declared, rfl, isJoin, found, above⟩ := recounts.declaredBy earlier
        exact ⟨other, declared, rfl, isJoin, kept _ _ found, kept _ _ above⟩
    granted := by
      intro other declared id isJoin found
      rcases DeclarationMap.inserted_or_found found with ⟨rfl, rfl⟩ | earlier
      · cases causes with
        | root present isRoot =>
            obtain ⟨body, again, kind, -⟩ := Tree.join?_eq_some.mp isJoin
            rw [present] at again
            cases again
            rw [isRoot] at kind
            cases kind
        | @join again parent _ isJoinAgain =>
            rw [isJoin] at isJoinAgain
            cases isJoinAgain
            exact ⟨parent, List.mem_cons_self⟩
      · obtain ⟨parent, member⟩ := recounts.granted isJoin earlier
        exact ⟨parent, List.mem_cons_of_mem _ member⟩
    present := by
      intro other id found
      rcases DeclarationMap.inserted_or_found found with ⟨-, rfl⟩ | earlier
      · exact effect.present
      · exact Nat.lt_of_lt_of_le (recounts.present earlier) effect.size_le
    resolved := by
      intro other outer id stands found
      rcases DeclarationMap.inserted_or_found found with ⟨rfl, rfl⟩ | earlier
      · rw [causes.resolveCorrelation] at stands
        cases stands
        exact found
      · exact kept _ _ (recounts.resolved stands earlier)
    nodup := DeclarationMap.nodup_keys_insert recounts.nodup
    faithful := recounts.faithful.insert fun found =>
      absurd (DeclarationMap.mem_keys_of_find? found) fresh }

/-- A source may be given the vertex of the source that it stands for. -/
theorem Recounts.correlate
    {source outer : NodeId}
    {vertex : VertexId}
    (recounts : before.Recounts tree history)
    (stands : tree.resolveCorrelation source = .ok outer)
    (found : before.declared.find? outer = some vertex) :
    Recounts { before with declared := before.declared.insert source vertex } tree history := by
  have agrees : ∀ {existing}, before.declared.find? source = some existing ->
      existing = vertex := by
    intro existing declared
    have again := recounts.resolved stands declared
    rw [found] at again
    exact (Option.some.inj again).symm
  have kept := DeclarationMap.extends_insert agrees
  exact {
    steps := recounts.steps
    unreferenced := recounts.unreferenced
    declaredBy := by
      intro contributor parent id member
      obtain ⟨other, declared, rfl, isJoin, foundAt, above⟩ := recounts.declaredBy member
      exact ⟨other, declared, rfl, isJoin, kept _ _ foundAt, kept _ _ above⟩
    granted := by
      intro other declared id isJoin declaredAt
      rcases DeclarationMap.inserted_or_found declaredAt with ⟨rfl, rfl⟩ | earlier
      · rw [Tree.resolveCorrelation_of_join? isJoin] at stands
        cases stands
        exact recounts.granted isJoin found
      · exact recounts.granted isJoin earlier
    present := by
      intro other id declared
      rcases DeclarationMap.inserted_or_found declared with ⟨-, rfl⟩ | earlier
      · exact recounts.present found
      · exact recounts.present earlier
    resolved := by
      intro other last id otherStands declared
      rcases DeclarationMap.inserted_or_found declared with ⟨rfl, rfl⟩ | earlier
      · rw [stands] at otherStands
        cases otherStands
        exact kept _ _ found
      · exact kept _ _ (recounts.resolved otherStands earlier)
    nodup := DeclarationMap.nodup_keys_insert recounts.nodup
    faithful := recounts.faithful.insert agrees }

end GraphState

namespace Graphing

variable {schema : Schema} {tree : Tree} {before after : GraphState}
  {history : List GraphEvent}

/-- Joins that were not declared yet are each granted a vertex. -/
theorem recounts_buildJoins
    {parent : VertexId}
    {joins : List SourceTree}
    {owner : NodeId}
    (listed : tree.Listed)
    (recounts : before.Recounts tree history)
    (parentFound : before.declared.find? owner = some parent)
    (declared : SourceTree.Declared tree owner joins)
    (fresh : ∀ join ∈ joins, ∀ inner, join.Contains inner -> inner.id ∉ before.declared.keys)
    (done : buildJoins schema parent joins before = .ok () after) :
    before.declared.Extends after.declared ∧ ∃ later, after.Recounts tree later := by
  induction parent, joins using buildJoins.induct generalizing before after owner history with
  | case1 parent =>
      rw [buildJoins] at done
      cases done
      exact ⟨.refl _, history, recounts⟩
  | case2 parent node source fetches joins rest _ _ _ _ _ isJoin joinsHypothesis restHypothesis =>
      obtain ⟨above, field, direction, mode, on, target, resolution, graph, below, kind, -,
        resolved, inner, last⟩ := buildJoins_cons_eq_ok.mp done
      obtain ⟨read, -, again, found, isOwner⟩ := declared.read _ List.mem_cons_self
      have present := (SourceTree.readFrom_mk read).1
      change tree.node? node = _ at found
      rw [present] at found
      cases found
      simp only [Node.owner?, kind, Option.some.injEq] at isOwner
      subst isOwner
      have nodeFresh := fresh _ List.mem_cons_self _ (.here _)
      have isDeclared : tree.join? node =
          some ⟨above, field, direction, mode, source.aliasHint, on⟩ :=
        Tree.join?_eq_some.mpr ⟨source, present, kind, rfl⟩
      have recountsJoin := recounts.declare (.join isDeclared parentFound) nodeFresh
        (.request (recounts.present parentFound) rfl resolved)
      have keptJoin := DeclarationMap.extends_insert_of_not_mem resolution.id nodeFresh
      have declaredInner := read.declared listed
      have freshInner : ∀ join ∈ joins, ∀ inside, join.Contains inside ->
          inside.id ∉ (before.declared.insert node resolution.id).keys := by
        intro join member inside contains known
        rcases DeclarationMap.mem_keys_insert.mp known with same | old
        · exact declaredInner.id_ne listed member contains same
        · exact fresh _ List.mem_cons_self inside (.inside member contains) old
      obtain ⟨keptInner, later, recountsInner⟩ := joinsHypothesis resolution recountsJoin
        (DeclarationMap.find?_insert_self _ _ _) declaredInner freshInner inner
      have freshRest : ∀ join ∈ rest, ∀ inside, join.Contains inside ->
          inside.id ∉ below.declared.keys := by
        intro join member inside contains known
        rcases (mem_keys_buildJoins inner inside.id).mp known with early | ⟨other, otherMember,
          outer, otherContains, same⟩
        · rcases DeclarationMap.mem_keys_insert.mp early with same | old
          · exact declared.apart listed member (.here _) contains same.symm
          · exact fresh join (List.mem_cons_of_mem _ member) inside contains old
        · exact declared.apart listed member (.inside otherMember otherContains) contains same
      obtain ⟨keptRest, final, recountsRest⟩ := restHypothesis recountsInner
        (keptInner _ _ (keptJoin _ _ parentFound)) declared.tail freshRest last
      exact ⟨(keptJoin.trans keptInner).trans keptRest, final, recountsRest⟩
  | case3 parent node source fetches joins rest notJoin =>
      obtain ⟨above, field, direction, mode, on, _, _, _, _, isJoin, -⟩ :=
        buildJoins_cons_eq_ok.mp done
      exact absurd isJoin (notJoin above field direction mode on)

/-- A root that was not declared yet is added with everything joined to it. -/
theorem recounts_buildRoot
    {vertex : VertexId}
    {source : SourceTree}
    (listed : tree.Listed)
    (recounts : before.Recounts tree history)
    (read : source.ReadFrom tree)
    (fresh : ∀ inner, source.Contains inner -> inner.id ∉ before.declared.keys)
    (done : buildRoot schema source before = .ok vertex after) :
    ∃ later, after.Recounts tree later := by
  obtain ⟨id, body, fetches, joins⟩ := source
  obtain ⟨recordType, type, isRoot, -, rfl, inner⟩ := buildRoot_eq_ok.mp done
  have present := (SourceTree.readFrom_mk read).1
  have idFresh := fresh _ (.here _)
  have recountsRoot := recounts.declare (.root present isRoot) idFresh
    (.root recordType body.aliasHint body.statement)
  have declared := read.declared listed
  refine (recounts_buildJoins listed recountsRoot (DeclarationMap.find?_insert_self _ _ _)
    declared ?_ inner).2
  intro join member inside contains known
  rcases DeclarationMap.mem_keys_insert.mp known with same | old
  · exact declared.id_ne listed member contains same
  · exact fresh inside (.inside member contains) old

end Graphing
end QueryGraph
