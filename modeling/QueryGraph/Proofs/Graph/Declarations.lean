import QueryGraph.Graph.Declarations
import QueryGraph.Proofs.Entries
import QueryGraph.Proofs.Operation
import QueryGraph.Proofs.Tree.Agreement

/-!
# What building the sources of a statement declares

Building a root declares exactly the root and the joins below it.
-/

namespace QueryGraph
namespace DeclarationMap

/-- The declarations that have a vertex. -/
def keys (map : DeclarationMap) : List NodeId := map.entries.map Prod.fst

/-- The declaration last recorded finds its vertex, and every other one keeps its own. -/
theorem find?_insert
    (map : DeclarationMap)
    (declaration other : NodeId)
    (vertex : VertexId) :
    (map.insert declaration vertex).find? other =
      if other = declaration then some vertex else map.find? other := by
  unfold insert find?
  simp only
  rw [List.lookup_cons]
  by_cases same : other = declaration
  · simp [same]
  · have differs : (other == declaration) = false := by simp [same]
    rw [differs, if_neg same]

theorem mem_keys_insert
    {map : DeclarationMap}
    {declaration other : NodeId}
    {vertex : VertexId} :
    other ∈ (map.insert declaration vertex).keys ↔ other = declaration ∨ other ∈ map.keys :=
  mem_listed_iff

theorem mem_keys_of_mem
    {map : DeclarationMap}
    {declaration : NodeId}
    {vertex : VertexId}
    (member : (declaration, vertex) ∈ map.entries) :
    declaration ∈ map.keys :=
  List.mem_map_of_mem member

theorem mem_keys_of_find?
    {map : DeclarationMap}
    {declaration : NodeId}
    {vertex : VertexId}
    (found : map.find? declaration = some vertex) :
    declaration ∈ map.keys :=
  isSome_find?_iff.mp (Option.isSome_of_eq_some found)

theorem find?_of_mem_keys
    {map : DeclarationMap}
    {declaration : NodeId}
    (member : declaration ∈ map.keys) :
    ∃ vertex, map.find? declaration = some vertex :=
  Option.isSome_iff_exists.mp (isSome_find?_iff.mpr member)

end DeclarationMap

namespace SourceTree

/-- A source with everything below it, inside another one. -/
inductive Contains : SourceTree -> SourceTree -> Prop
  | here (tree : SourceTree) : Contains tree tree
  | inside
      {id : NodeId}
      {source : Source}
      {fetches : List FetchTree}
      {joins : List SourceTree}
      {join inner : SourceTree}
      (member : join ∈ joins)
      (found : Contains join inner) :
      Contains (.mk id source fetches joins) inner

theorem contains_mk
    {id : NodeId}
    {source : Source}
    {fetches : List FetchTree}
    {joins : List SourceTree}
    {inner : SourceTree} :
    (SourceTree.mk id source fetches joins).Contains inner ↔
      inner = .mk id source fetches joins ∨ ∃ join ∈ joins, join.Contains inner := by
  constructor
  · intro contains
    cases contains with
    | here => exact Or.inl rfl
    | inside member found => exact Or.inr ⟨_, member, found⟩
  · rintro (rfl | ⟨join, member, found⟩)
    · exact .here _
    · exact .inside member found

theorem Contains.ids_subset
    {outer inner : SourceTree}
    (contains : outer.Contains inner) :
    inner.ids ⊆ outer.ids := by
  induction contains with
  | here tree => exact List.Subset.refl _
  | @inside id source fetches joins join inner member found inductionHypothesis =>
      intro other otherMember
      refine List.mem_cons_of_mem id (List.mem_append_right _ (mem_joinIds.mpr ?_))
      exact ⟨join, member, inductionHypothesis otherMember⟩

/-- A source that was read off a tree, with everything below it. -/
def ReadFrom (tree : Tree) (source : SourceTree) : Prop :=
  ∃ fuel, ofNode tree fuel source.id = .ok source

theorem id_of_ofNode
    {tree : Tree}
    {fuel : Nat}
    {id : NodeId}
    {source : SourceTree}
    (found : ofNode tree fuel id = .ok source) :
    source.id = id := by
  cases fuel with
  | zero => cases found
  | succ fuel =>
      obtain ⟨body, fetches, joins, -, -, -, rfl⟩ := ofNode_succ_eq_ok.mp found
      rfl

theorem readFrom_of_ofNode
    {tree : Tree}
    {fuel : Nat}
    {id : NodeId}
    {source : SourceTree}
    (found : ofNode tree fuel id = .ok source) :
    source.ReadFrom tree := by
  refine ⟨fuel, ?_⟩
  rw [id_of_ofNode found, found]

theorem readFrom_mk
    {tree : Tree}
    {id : NodeId}
    {body : Source}
    {fetches : List FetchTree}
    {joins : List SourceTree}
    (read : (SourceTree.mk id body fetches joins).ReadFrom tree) :
    tree.node? id = some (.source body) ∧ tree.fetchTrees id = .ok fetches ∧
      (∀ join ∈ joins, join.ReadFrom tree ∧ join.id ∈ body.joins) ∧
      ∀ child ∈ body.joins, ∃ join ∈ joins, join.id = child := by
  obtain ⟨fuel, found⟩ := read
  cases fuel with
  | zero => cases found
  | succ fuel =>
      obtain ⟨body, fetches, joins, present, fetchesFound, joinsFound, same⟩ :=
        ofNode_succ_eq_ok.mp found
      cases same
      refine ⟨present, Tree.fetchTrees_eq_ok.mpr ⟨body, present, fetchesFound⟩, ?_, ?_⟩
      · intro join member
        obtain ⟨child, childMember, childFound⟩ :=
          Operation.exists_of_mem_mapM joinsFound member
        rw [id_of_ofNode childFound]
        exact ⟨readFrom_of_ofNode childFound, childMember⟩
      · intro child member
        obtain ⟨join, joinMember, joinFound⟩ :=
          Operation.exists_of_mapM_eq_ok joinsFound member
        exact ⟨join, joinMember, id_of_ofNode joinFound⟩

theorem Contains.readFrom
    {tree : Tree}
    {outer inner : SourceTree}
    (contains : outer.Contains inner)
    (read : outer.ReadFrom tree) :
    inner.ReadFrom tree := by
  induction contains with
  | here tree => exact read
  | inside member found inductionHypothesis =>
      exact inductionHypothesis ((readFrom_mk read).2.2.1 _ member).1

end SourceTree

namespace Graphing

/-! ## What a step of building does -/

variable {schema : Schema} {before after : GraphState}

theorem require_eq_ok
    {result : Except CompileError α}
    {value : α} :
    require result before = .ok value after ↔ result = .ok value ∧ after = before := by
  cases result with
  | error error =>
      change EStateM.Result.error error before = _ ↔ _
      simp
  | ok found =>
      change EStateM.Result.ok found before = _ ↔ _
      simp only [EStateM.Result.ok.injEq, Except.ok.injEq, eq_comm (a := after)]

theorem onGraph_eq_ok
    {action : EStateM CompileError JoinGraph α}
    {value : α} :
    onGraph action before = .ok value after ↔
      ∃ graph, action before.graph = .ok value graph ∧
        after = { before with graph := graph } := by
  unfold onGraph
  cases action before.graph with
  | error error graph => simp
  | ok found graph =>
      simp only [EStateM.Result.ok.injEq]
      constructor
      · rintro ⟨rfl, rfl⟩
        exact ⟨graph, ⟨rfl, rfl⟩, rfl⟩
      · rintro ⟨_, ⟨rfl, rfl⟩, rfl⟩
        exact ⟨rfl, rfl⟩

/-- The record type of a vertex of a graph. -/
def typeOf (graph : JoinGraph) (vertex : VertexId) : String :=
  ((graph.vertex? vertex).map Vertex.recordType).getD ""

theorem recordType_apply
    (vertex : VertexId)
    (state : GraphState) :
    recordType vertex state = .ok (typeOf state.graph vertex) state := rfl

theorem buildJoins_cons_eq_ok
    {parent : VertexId}
    {id : NodeId}
    {body : Source}
    {fetches : List FetchTree}
    {joins rest : List SourceTree} :
    buildJoins schema parent (.mk id body fetches joins :: rest) before = .ok () after ↔
      ∃ above field direction mode on target resolution graph below,
        body.kind = .join above field direction mode on ∧
        schema.relationTarget (typeOf before.graph parent) field = .ok target ∧
        JoinGraph.resolve parent {
          field := field
          targetType := target
          direction := direction
          mode := mode
          aliasHint := body.aliasHint
          on := on
          origin := .explicit } before.graph = .ok resolution graph ∧
        buildJoins schema resolution.id joins
          { graph := graph, declared := before.declared.insert id resolution.id } =
            .ok () below ∧
        buildJoins schema parent rest below = .ok () after := by
  rw [buildJoins]
  cases kind : body.kind with
  | root recordType =>
      simp only [reduceCtorEq, false_and, exists_const, exists_false, iff_false]
      intro contrary
      cases contrary
  | correlated outer =>
      simp only [reduceCtorEq, false_and, exists_const, exists_false, iff_false]
      intro contrary
      cases contrary
  | join above field direction mode on =>
      simp only [Operation.bind_eq_ok, require_eq_ok, onGraph_eq_ok]
      constructor
      · rintro ⟨_, current, got, target, middle, ⟨found, rfl⟩, resolution, _,
          ⟨graph, resolved, rfl⟩, ⟨⟩, _, declared, ⟨⟩, below, inner, last⟩
        cases got
        cases declared
        exact ⟨above, field, direction, mode, on, target, resolution, graph, below, rfl, found,
          resolved, inner, last⟩
      · rintro ⟨_, _, _, _, _, target, resolution, graph, below, same, found, resolved, inner, last⟩
        cases same
        exact ⟨_, before, rfl, target, before, ⟨found, rfl⟩, resolution, _,
          ⟨graph, resolved, rfl⟩, (), _, rfl, (), below, inner, last⟩

theorem buildRoot_eq_ok
    {vertex : VertexId}
    {id : NodeId}
    {body : Source}
    {fetches : List FetchTree}
    {joins : List SourceTree} :
    buildRoot schema (.mk id body fetches joins) before = .ok vertex after ↔
      ∃ recordType type, body.kind = .root recordType ∧
        schema.requireRecordType recordType = .ok type ∧ vertex = ⟨before.graph.size⟩ ∧
        buildJoins schema vertex joins
          { graph :=
              (before.graph.addRoot (.root recordType body.aliasHint body.statement)).2
            declared := before.declared.insert id vertex } = .ok () after := by
  rw [buildRoot]
  cases kind : body.kind with
  | join =>
      simp only [reduceCtorEq, false_and, exists_const, exists_false, iff_false]
      intro contrary
      cases contrary
  | correlated outer =>
      simp only [reduceCtorEq, false_and, exists_const, exists_false, iff_false]
      intro contrary
      cases contrary
  | root recordType =>
      simp only [Operation.bind_eq_ok, require_eq_ok]
      constructor
      · rintro ⟨type, current, ⟨found, rfl⟩, state, _, got, ⟨⟩, _, stored, ⟨⟩, _, declared, ⟨⟩,
          below, inner, last⟩
        cases got
        cases stored
        cases declared
        cases last
        exact ⟨recordType, type, rfl, found, rfl, inner⟩
      · rintro ⟨_, type, same, found, rfl, inner⟩
        cases same
        exact ⟨type, before, ⟨found, rfl⟩, before, before, rfl, (), _, rfl, (), _, rfl, (), after,
          inner, rfl⟩

/-! ## The declarations that building adds -/

/-- Building joins declares the joins and everything joined below them, and nothing
else. -/
theorem mem_keys_buildJoins
    {parent : VertexId}
    {joins : List SourceTree}
    (done : buildJoins schema parent joins before = .ok () after)
    (id : NodeId) :
    id ∈ after.declared.keys ↔
      id ∈ before.declared.keys ∨ ∃ join ∈ joins, ∃ inner, join.Contains inner ∧ inner.id = id := by
  induction parent, joins using buildJoins.induct generalizing before after with
  | case1 parent =>
      rw [buildJoins] at done
      cases done
      simp
  | case2 parent node source fetches joins rest above field direction mode on isJoin joinsHypothesis
      restHypothesis =>
      obtain ⟨_, _, _, _, _, target, resolution, graph, below, -, -, -, inner, last⟩ :=
        buildJoins_cons_eq_ok.mp done
      have contained : (∃ inner, (SourceTree.mk node source fetches joins).Contains inner ∧
          inner.id = id) ↔ id = node ∨ ∃ join ∈ joins, ∃ inner, join.Contains inner ∧
            inner.id = id := by
        simp only [SourceTree.contains_mk]
        constructor
        · rintro ⟨inner, rfl | ⟨join, member, found⟩, same⟩
          · exact Or.inl same.symm
          · exact Or.inr ⟨join, member, inner, found, same⟩
        · rintro (rfl | ⟨join, member, inner, found, same⟩)
          · exact ⟨_, Or.inl rfl, rfl⟩
          · exact ⟨inner, Or.inr ⟨join, member, found⟩, same⟩
      rw [restHypothesis last, joinsHypothesis resolution inner, DeclarationMap.mem_keys_insert]
      simp only [List.mem_cons, exists_eq_or_imp, contained, or_assoc]
      exact or_left_comm
  | case3 parent node source fetches joins rest notJoin =>
      obtain ⟨above, field, direction, mode, on, _, _, _, _, isJoin, -⟩ :=
        buildJoins_cons_eq_ok.mp done
      exact absurd isJoin (notJoin above field direction mode on)

/-- Building a root declares the root and the joins below it, and nothing else. -/
theorem mem_keys_buildRoot
    {vertex : VertexId}
    {source : SourceTree}
    (done : buildRoot schema source before = .ok vertex after)
    (id : NodeId) :
    id ∈ after.declared.keys ↔
      id ∈ before.declared.keys ∨ ∃ inner, source.Contains inner ∧ inner.id = id := by
  obtain ⟨root, body, fetches, joins⟩ := source
  obtain ⟨recordType, type, -, -, -, inner⟩ := buildRoot_eq_ok.mp done
  rw [mem_keys_buildJoins inner, DeclarationMap.mem_keys_insert]
  simp only [SourceTree.contains_mk]
  constructor
  · rintro ((rfl | old) | ⟨join, member, inner, found, same⟩)
    · exact Or.inr ⟨_, Or.inl rfl, rfl⟩
    · exact Or.inl old
    · exact Or.inr ⟨inner, Or.inr ⟨join, member, found⟩, same⟩
  · rintro (old | ⟨inner, rfl | ⟨join, member, found⟩, same⟩)
    · exact Or.inl (Or.inr old)
    · exact Or.inl (Or.inl same.symm)
    · exact Or.inr ⟨join, member, inner, found, same⟩

end Graphing
end QueryGraph
