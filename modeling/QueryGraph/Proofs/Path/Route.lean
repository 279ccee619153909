import QueryGraph.Proofs.Tree.Placement

/-!
# Ways to a path

A path leads over fields and treats to a source, and from a join further to the source that
it hangs off. Where every node stands where it has to, a path that has a source has such a
way, and all sources on it belong to one statement.
-/

namespace QueryGraph
namespace Route

/-- The sources on a route, nearest first. -/
def sources : Route -> List NodeId
  | .origin source => [source]
  | .join parent source _ _ => source :: parent.sources
  | .field parent _ => parent.sources
  | .treat target _ => target.sources

/-- A route is the way that the nodes of a tree give from a node to its origin. -/
inductive Leads (tree : Tree) : NodeId -> Route -> Prop
  | origin
      {id : NodeId}
      {body : Source}
      (found : tree.node? id = some (.source body))
      (notJoin : body.isJoin = false) :
      Leads tree id (.origin id)
  | join
      {id parent : NodeId}
      {body : Source}
      {field : String}
      {direction : JoinDirection}
      {mode : JoinMode}
      {on : Option NodeId}
      {above : Route}
      (found : tree.node? id = some (.source body))
      (isJoin : body.kind = .join parent field direction mode on)
      (leads : Leads tree parent above) :
      Leads tree id (.join above id field direction)
  | field
      {id parent : NodeId}
      {name : String}
      {above : Route}
      (found : tree.node? id = some (.path parent name))
      (leads : Leads tree parent above) :
      Leads tree id (.field above name)
  | treat
      {id target : NodeId}
      {asType : String}
      {inner : Route}
      (found : tree.node? id = some (.treat target asType))
      (leads : Leads tree target inner) :
      Leads tree id (.treat inner asType)

/-- The way to a node is found once the fuel exceeds the number of the node. -/
theorem Leads.ofNode
    {tree : Tree}
    {id : NodeId}
    {route : Route}
    {fuel : Nat}
    (leads : Leads tree id route)
    (placed : tree.Placed)
    (enough : id.index < fuel) :
    Route.ofNode tree fuel id = .ok route := by
  induction leads generalizing fuel with
  | @origin id body found notJoin =>
      obtain ⟨fuel, rfl⟩ : ∃ rest, fuel = rest + 1 := ⟨fuel - 1, by omega⟩
      rw [Route.ofNode, Tree.node_eq_ok.mpr found]
      unfold Source.isJoin at notJoin
      cases kind : body.kind with
      | join => simp [kind] at notJoin
      | _ => simp only [kind]
  | @join id parent body field direction mode on above found isJoin leads inductionHypothesis =>
      obtain ⟨fuel, rfl⟩ : ∃ rest, fuel = rest + 1 := ⟨fuel - 1, by omega⟩
      have places := (placed id _ found).1
      rw [isJoin] at places
      have older := places.1
      have aboveFound := inductionHypothesis (show parent.index < fuel by omega)
      rw [Route.ofNode, Tree.node_eq_ok.mpr found]
      simp only [isJoin, aboveFound]
      rfl
  | @field id parent name above found leads inductionHypothesis =>
      obtain ⟨fuel, rfl⟩ : ∃ rest, fuel = rest + 1 := ⟨fuel - 1, by omega⟩
      have older := (placed id _ found).1
      have aboveFound := inductionHypothesis (show parent.index < fuel by omega)
      rw [Route.ofNode, Tree.node_eq_ok.mpr found]
      simp only [aboveFound]
      rfl
  | @treat id target asType inner found leads inductionHypothesis =>
      obtain ⟨fuel, rfl⟩ : ∃ rest, fuel = rest + 1 := ⟨fuel - 1, by omega⟩
      have older := (placed id _ found).1
      have innerFound := inductionHypothesis (show target.index < fuel by omega)
      rw [Route.ofNode, Tree.node_eq_ok.mpr found]
      simp only [innerFound]
      rfl

theorem Leads.route
    {tree : Tree}
    {id : NodeId}
    {route : Route}
    (leads : Leads tree id route)
    (placed : tree.Placed) :
    tree.route id = .ok route := by
  have present : ∃ node, tree.node? id = some node := by
    cases leads with
    | origin found => exact ⟨_, found⟩
    | join found => exact ⟨_, found⟩
    | field found => exact ⟨_, found⟩
    | treat found => exact ⟨_, found⟩
  obtain ⟨node, found⟩ := present
  have below := Tree.lt_size_of_node? found
  exact leads.ofNode placed (by omega)

/-- A way that was found is the one that the nodes give. -/
theorem leads_of_ofNode
    {tree : Tree}
    {id : NodeId}
    {route : Route}
    {fuel : Nat}
    (found : Route.ofNode tree fuel id = .ok route) :
    Leads tree id route := by
  induction fuel generalizing id route with
  | zero => cases found
  | succ fuel inductionHypothesis =>
      have above : ∀ {next : NodeId} {change : Route -> Route},
          (Route.ofNode tree fuel next).map change = .ok route ->
            ∃ inner, Leads tree next inner ∧ change inner = route := by
        intro next change mapped
        cases read : Route.ofNode tree fuel next with
        | error error =>
            rw [read] at mapped
            cases mapped
        | ok inner =>
            rw [read] at mapped
            exact ⟨inner, inductionHypothesis read, Except.ok.inj mapped⟩
      unfold Route.ofNode at found
      cases present : tree.node id with
      | error error =>
          rw [present] at found
          cases found
      | ok node =>
          have listed := Tree.node_eq_ok.mp present
          simp only [present] at found
          cases node with
          | source body =>
              cases kind : body.kind with
              | join parent field direction mode on =>
                  simp only [kind] at found
                  obtain ⟨inner, leads, rfl⟩ := above found
                  exact .join listed kind leads
              | root recordType =>
                  simp only [kind] at found
                  cases found
                  exact .origin listed (by simp [Source.isJoin, kind])
              | correlated outer =>
                  simp only [kind] at found
                  cases found
                  exact .origin listed (by simp [Source.isJoin, kind])
          | path parent name =>
              obtain ⟨inner, leads, rfl⟩ := above found
              exact .field listed leads
          | treat target asType =>
              obtain ⟨inner, leads, rfl⟩ := above found
              exact .treat listed leads
          | _ => cases found

/-- The record types that a route names. -/
def treats : Route -> List String
  | .origin _ => []
  | .join parent _ _ _ => parent.treats
  | .field parent _ => parent.treats
  | .treat target asType => asType :: target.treats

theorem Leads.treated
    {tree : Tree}
    {id : NodeId}
    {route : Route}
    {name : String}
    (leads : Leads tree id route)
    (named : name ∈ route.treats) :
    ∃ node target, tree.node? node = some (.treat target name) := by
  induction leads with
  | origin found notJoin => cases named
  | join found isJoin leads inductionHypothesis => exact inductionHypothesis named
  | field found leads inductionHypothesis => exact inductionHypothesis named
  | treat found leads inductionHypothesis =>
      rcases List.mem_cons.mp named with rfl | further
      · exact ⟨_, _, found⟩
      · exact inductionHypothesis further

/-- All sources on a route belong to a statement. -/
def Within
    (tree : Tree)
    (statement : NodeId)
    (route : Route) : Prop :=
  ∀ source ∈ route.sources, ∃ body, tree.node? source = some (.source body) ∧
    body.statement = statement

end Route

namespace Tree

/-- Every source has a way to its origin, inside its statement. -/
theorem Placed.leads_source
    {tree : Tree}
    {id : NodeId}
    {body : Source}
    (placed : tree.Placed)
    (found : tree.node? id = some (.source body)) :
    ∃ route, Route.Leads tree id route ∧ id ∈ route.sources ∧
      route.Within tree body.statement := by
  obtain ⟨index, indexEq⟩ : ∃ index, id.index = index := ⟨_, rfl⟩
  induction index using Nat.strongRecOn generalizing id body with
  | ind index inductionHypothesis =>
      have ends (notJoin : body.isJoin = false) : ∃ route, Route.Leads tree id route ∧
          id ∈ route.sources ∧ route.Within tree body.statement := by
        refine ⟨.origin id, .origin found notJoin, List.mem_cons_self, fun source member => ?_⟩
        rw [List.mem_singleton.mp member]
        exact ⟨body, found, rfl⟩
      cases kind : body.kind with
      | root recordType => exact ends (by simp [Source.isJoin, kind])
      | correlated outer => exact ends (by simp [Source.isJoin, kind])
      | join parent field direction mode on =>
          have places := (placed id _ found).1
          rw [kind] at places
          obtain ⟨older, above, aboveFound, -, sameStatement, -⟩ := places
          obtain ⟨route, leads, -, within⟩ :=
            inductionHypothesis parent.index (by omega) aboveFound rfl
          refine ⟨.join route id field direction, .join found kind leads, List.mem_cons_self, ?_⟩
          intro source member
          rcases List.mem_cons.mp member with rfl | further
          · exact ⟨body, found, rfl⟩
          · rw [← sameStatement]
            exact within source further

/-- A path with a source has a way to its origin, inside the statement of the source. -/
theorem Placed.leads_of_chain
    {tree : Tree}
    {id : NodeId}
    {fuel : Nat}
    {chain : PathChain}
    (placed : tree.Placed)
    (read : PathChain.ofNode tree fuel id = .ok chain) :
    ∃ route, Route.Leads tree id route ∧ tree.node? chain.sourceId = some (.source chain.source) ∧
      chain.sourceId ∈ route.sources ∧ route.Within tree chain.source.statement := by
  induction fuel generalizing id chain with
  | zero => cases read
  | succ fuel inductionHypothesis =>
      rcases chainOfNode_succ_eq_ok.mp read with
        ⟨body, found, rfl⟩ | ⟨next, inner, passed, nextRead, rfl⟩
      · obtain ⟨route, leads, member, within⟩ := placed.leads_source found
        exact ⟨route, leads, found, member, within⟩
      · obtain ⟨route, leads, rest⟩ := inductionHypothesis nextRead
        rcases passed with ⟨name, found⟩ | ⟨asType, found⟩
        · exact ⟨.field route name, .field found leads, rest⟩
        · exact ⟨.treat route asType, .treat found leads, rest⟩

/-- The way to the origin of a path with a source is its route. -/
theorem Placed.route_of_pathChain
    {tree : Tree}
    {id : NodeId}
    {chain : PathChain}
    (placed : tree.Placed)
    (found : tree.pathChain id = .ok chain) :
    ∃ route, Route.Leads tree id route ∧ tree.route id = .ok route := by
  obtain ⟨route, leads, -⟩ := placed.leads_of_chain found
  exact ⟨route, leads, leads.route placed⟩

end Tree
end QueryGraph
