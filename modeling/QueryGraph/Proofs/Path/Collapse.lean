import QueryGraph.Proofs.Path.Shape

/-!
# Joins that a path keeps

A path over a declared join has a link to the vertex of the join, unless the path ends with the
join or with its identifier and a key column stands for the join. Only the relation, the direction
of the join and the schema decide that: a condition on the join is never asked for.
-/

namespace QueryGraph

/-- A declared join has a station on every route over its source. -/
theorem Route.Leads.station_of_join
    {tree : Tree}
    {id source : NodeId}
    {route : Route}
    {declared : JoinDeclaration}
    (leads : Route.Leads tree id route)
    (onRoute : source ∈ route.sources)
    (isJoin : tree.join? source = some declared) :
    ∃ owner, .join owner source declared.field declared.direction ∈ route.stations := by
  obtain ⟨body, found, kind, -⟩ := Tree.join?_eq_some.mp isJoin
  induction leads with
  | origin foundHere notJoin =>
      cases List.mem_singleton.mp onRoute
      rw [found] at foundHere
      cases foundHere
      simp [Source.isJoin, kind] at notJoin
  | join foundHere kindHere leads inductionHypothesis =>
      rcases List.mem_cons.mp onRoute with rfl | further
      · rw [found] at foundHere
        cases foundHere
        rw [kind] at kindHere
        cases kindHere
        exact ⟨_, List.mem_cons_self⟩
      · obtain ⟨owner, station⟩ := inductionHypothesis further
        exact ⟨owner, List.mem_cons_of_mem _ station⟩
  | field foundHere leads inductionHypothesis =>
      obtain ⟨owner, station⟩ := inductionHypothesis onRoute
      exact ⟨owner, List.mem_cons_of_mem _ station⟩
  | treat foundHere leads inductionHypothesis => exact inductionHypothesis onRoute

/-- A path that is shaped as a chain of vertices does not lead to one that hangs off its end. -/
theorem CompiledPath.Shape.not_mem_targets
    {path : CompiledPath}
    {graph : JoinGraph}
    {first id above : VertexId}
    {further : List VertexId}
    (shape : path.Shape graph first further [])
    (forest : graph.Forest)
    (leaf : path.leaf.vertex? = some above)
    (hangs : graph.HangsOff id above) :
    .vertex id ∉ path.targets := by
  intro member
  have vertices : path.targets = (first :: further).reverse.map LinkTarget.vertex := by
    simpa using shape.targets_eq
  have last : (first :: further).getLast? = some above := by
    rw [← shape.nearest, nearestVertex?, links, List.findSome?_cons, leaf]
  have met : id ∈ first :: further := by
    rw [vertices] at member
    obtain ⟨_, listed, same⟩ := List.mem_map.mp member
    cases same
    exact List.mem_reverse.mp listed
  have ascending : (first :: further).Pairwise fun left right => left.index < right.index := by
    have steps := shape.linked.imp fun _ _ hangs => forest.older hangs
    exact List.isChain_iff_pairwise.mp steps
  obtain ⟨earlier, split⟩ := List.getLast?_eq_some_iff.mp last
  have older := forest.older hangs
  rw [split] at met ascending
  rcases List.mem_append.mp met with before | same
  · have less := (List.pairwise_append.mp ascending).2.2 id before above List.mem_cons_self
    omega
  · cases List.mem_singleton.mp same
    exact Nat.lt_irrefl _ older

/-- What is related to the items of a list is related to each of them. -/
theorem exists_mem_of_forall₂
    {relation : α -> β -> Prop}
    {items : List α}
    {values : List β}
    {item : α}
    (related : List.Forall₂ relation items values)
    (member : item ∈ items) :
    ∃ value ∈ values, relation item value := by
  induction related with
  | nil => cases member
  | cons first rest inductionHypothesis =>
      rcases List.mem_cons.mp member with rfl | later
      · exact ⟨_, List.mem_cons_self, first⟩
      · obtain ⟨value, listed, holds⟩ := inductionHypothesis later
        exact ⟨value, List.mem_cons_of_mem _ listed, holds⟩

namespace PathContext

variable {context : PathContext} {tree : Tree} {types : NodeId -> Option String}
  {before after : JoinGraph} {selected : Bool} {route : Route} {path : CompiledPath}

/-- The path reads a key column in place of a declared join: the column stands for the join, and the
path ends with the join or with its identifier. -/
def ReadsKey
    (context : PathContext)
    (types : NodeId -> Option String)
    (selected : Bool)
    (route : Route)
    (source : NodeId)
    (declared : JoinDeclaration) : Prop :=
  ∃ owner, context.Keyed types owner declared.field declared.direction ∧
    context.EndsWith types selected route (.join owner source declared.field declared.direction)

/-- A key column stands for a join exactly when the relation and the schema say so. -/
theorem Ready.standsForJoin_iff
    {owner : Route}
    {relation : String}
    {direction : JoinDirection}
    {stands : Bool}
    (ready : context.Ready tree types before)
    (asked : context.standsForJoin owner relation direction before = .ok stands after) :
    stands = true ↔ context.Keyed types owner relation direction := by
  obtain ⟨-, type, declared, typed, required, holds⟩ := standsForJoin_eq_ok.mp asked
  have typedHere := ready.type?_of_recordType typed
  have found := Schema.requireField_eq_ok.mp required
  have condition : stands = true ↔ declared.isToOne = true ∧
      (direction = .left ∨ context.strictSchema = true ∧ declared.optional = false ∧
        declared.relationKind? = some .manyToOne) := by
    simp [holds, Field.isGuaranteedPresent]
  rw [condition]
  constructor
  · exact fun keyed => ⟨type, declared, typedHere, found, keyed⟩
  · rintro ⟨_, _, typedAgain, foundAgain, keyed⟩
    rw [typedHere] at typedAgain
    cases typedAgain
    rw [found] at foundAgain
    cases foundAgain
    exact keyed

/-- A path that reads the key column goes over fields from the source above the join. -/
theorem targets_of_readsKey
    {id source : NodeId}
    {declared : JoinDeclaration}
    (seated : context.Seated tree types before)
    (leads : Route.Leads tree id route)
    (isJoin : tree.join? source = some declared)
    (readsKey : context.ReadsKey types selected route source declared)
    (done : context.compileRoute route true selected before = .ok path after) :
    ∃ (owner : Route) (above : CompiledPath) (names : List String),
        Route.Leads tree declared.parent owner ∧
        context.compileRoute owner false false before = .ok above after ∧
        path.targets = names.map LinkTarget.field ++ above.targets := by
  obtain ⟨owner, keyed, ends⟩ := readsKey
  obtain ⟨joinBody, joinFound, joinKind, -⟩ := Tree.join?_eq_some.mp isJoin
  induction leads generalizing path with
  | origin =>
      rcases ends with ⟨contrary, -⟩ | ⟨_, _, _, contrary, -⟩ <;> cases contrary
  | join found kind leads =>
      rcases ends with ⟨same, unselected⟩ | ⟨_, _, _, contrary, -⟩
      · cases same
        subst unselected
        rw [joinFound] at found
        cases found
        rw [joinKind] at kind
        cases kind
        obtain ⟨stands, asked, ⟨-, above, aboveDone, rfl⟩ | ⟨rfl, -⟩⟩ :=
          compileRoute_join_eq_ok.mp done
        · exact ⟨owner, above, [declared.field], leads, aboveDone, rfl⟩
        · cases (seated.ready.standsForJoin_iff asked).mpr keyed
      · cases contrary
  | @field _ _ name _ found leads =>
      rcases ends with ⟨contrary, -⟩ | ⟨_, type, identifier, same, typed, idFound, isId⟩
      · cases contrary
      · cases same
        cases leads with
        | join foundJoin kind leads =>
            rw [joinFound] at foundJoin
            cases foundJoin
            rw [joinKind] at kind
            cases kind
            obtain ⟨typeHere, field, collapsed, between, asked, required, attempt, rest⟩ :=
              compileRoute_field_eq_ok.mp done
            have typedHere := seated.ready.type?_of_recordType asked
            rw [typed] at typedHere
            cases typedHere
            have fieldFound := Schema.requireField_eq_ok.mp required
            rw [idFound] at fieldFound
            cases fieldFound
            rw [attemptField, isId, Bool.and_self, if_pos rfl] at attempt
            obtain ⟨stands, keyAsked, ⟨-, above, aboveDone, rfl⟩ | ⟨rfl, -⟩⟩ :=
              collapseIdentifier_join_eq_ok.mp attempt
            · rcases rest with ⟨same, rfl⟩ | ⟨contrary, -⟩
              · cases same
                exact ⟨owner, above, [name, declared.field], leads, aboveDone, rfl⟩
              · cases contrary
            · cases (seated.ready.standsForJoin_iff keyAsked).mpr keyed
  | treat found leads inductionHypothesis =>
      obtain ⟨_, inner, -, innerDone, rfl⟩ := compileRoute_treat_eq_ok.mp done
      rw [CompiledPath.targets_treat]
      exact inductionHypothesis innerDone ends

/-- A path over a declared join has a link to its vertex exactly when it does not read the
key column. -/
theorem mem_targets_iff_of_compileRoute
    {id source : NodeId}
    {declared : JoinDeclaration}
    {vertex : VertexId}
    (seated : context.Seated tree types before)
    (leads : Route.Leads tree id route)
    (onRoute : source ∈ route.sources)
    (isJoin : tree.join? source = some declared)
    (vertexFound : context.sources.find? source = some vertex)
    (done : context.compileRoute route true selected before = .ok path after) :
    .vertex vertex ∈ path.targets ↔ ¬ context.ReadsKey types selected route source declared := by
  constructor
  · intro member readsKey
    obtain ⟨owner, above, names, ownerLeads, aboveDone, targets⟩ :=
      targets_of_readsKey seated leads isJoin readsKey done
    obtain ⟨first, further, traces⟩ := traces_of_passing seated ownerLeads aboveDone
    obtain ⟨seatedAfter, -⟩ := seated.compileRoute ownerLeads aboveDone
    obtain ⟨parent, parentFound, hangs⟩ := seatedAfter.hangs isJoin vertexFound
    obtain ⟨_, -, described⟩ := seatedAfter.ready.sound.described parentFound
    obtain ⟨body, found⟩ := described.exists_source
    have leaf := leaf_of_compileRoute ownerLeads found aboveDone
    have missed := (traces false owner).shape.not_mem_targets seatedAfter.forest
      (leaf.trans parentFound) hangs
    rw [targets] at member
    rcases List.mem_append.mp member with overFields | met
    · obtain ⟨name, -, contrary⟩ := List.mem_map.mp overFields
      cases contrary
    · exact missed met
  · intro keeps
    obtain ⟨first, further, names, traces, -⟩ := traces_of_compileRoute seated leads rfl done
    obtain ⟨owner, station⟩ := leads.station_of_join onRoute isJoin
    obtain ⟨target, member, represents⟩ := exists_mem_of_forall₂ traces.stations station
    cases represents with
    | edge declaredHere =>
        rw [vertexFound] at declaredHere
        cases declaredHere
        exact member
    | key keyed ends => exact absurd ⟨owner, keyed, ends⟩ keeps

end PathContext
end QueryGraph
