import QueryGraph.Tree.Declared
import QueryGraph.Tree.Freeze

/-!
# Looking up nodes and holds

What the nodes and holds of a tree are after a node was added, a node was replaced
or a hold was replaced.
-/

namespace QueryGraph
namespace Tree

theorem node_eq_ok
    {tree : Tree}
    {id : NodeId}
    {node : Node} :
    tree.node id = .ok node ↔ tree.node? id = some node := by
  unfold Tree.node
  cases tree.node? id <;> simp

theorem statement_eq_ok
    {tree : Tree}
    {id : NodeId}
    {body : Statement} :
    tree.statement id = .ok body ↔ tree.node? id = some (.statement body) := by
  unfold Tree.statement Tree.node
  cases tree.node? id with
  | none => simp
  | some node => cases node <;> simp

theorem source_eq_ok
    {tree : Tree}
    {id : NodeId}
    {body : Source} :
    tree.source id = .ok body ↔ tree.node? id = some (.source body) := by
  unfold Tree.source Tree.node
  cases tree.node? id with
  | none => simp
  | some node => cases node <;> simp

theorem contains_iff
    {tree : Tree}
    {id : NodeId} :
    tree.contains id = true ↔ id.index < tree.size := by
  simp [contains]

theorem mem_ids
    {tree : Tree}
    {id : NodeId} :
    id ∈ tree.ids ↔ id.index < tree.size := by
  unfold ids
  rw [List.mem_map]
  constructor
  · rintro ⟨index, member, rfl⟩
    exact List.mem_range.mp member
  · exact fun below => ⟨id.index, List.mem_range.mpr below, rfl⟩

/-- Trees with the same nodes are looked up alike. -/
theorem node?_eq_of_nodes
    {before after : Tree}
    (nodes : after.nodes = before.nodes)
    (id : NodeId) :
    after.node? id = before.node? id := by
  unfold node?
  rw [nodes]

/-- A node that can be looked up has a number below the size. -/
theorem lt_size_of_node?
    {tree : Tree}
    {id : NodeId}
    {node : Node}
    (found : tree.node? id = some node) :
    id.index < tree.size := by
  unfold node? at found
  exact (Array.getElem?_eq_some_iff.mp found).1

theorem node?_isSome_of_lt
    {tree : Tree}
    {id : NodeId}
    (below : id.index < tree.size) :
    ∃ node, tree.node? id = some node :=
  ⟨tree.nodes[id.index], Array.getElem?_eq_getElem below⟩

/-- A hold on a node that does not exist is the empty one. -/
theorem hold_of_size_le
    {tree : Tree}
    {id : NodeId}
    (beyond : tree.size ≤ id.index) :
    tree.hold id = {} := by
  have outside : tree.holds[id.index]? = none := by
    rw [Array.getElem?_eq_none_iff, tree.holds_size]
    exact beyond
  simp [hold, outside]

/-- A new tree has an empty top statement and nothing else. -/
theorem node?_ofKind
    {kind : StatementKind}
    {id : NodeId}
    {node : Node}
    (found : (ofKind kind).node? id = some node) :
    node = .statement { kind := kind } := by
  have first : id.index < 1 := lt_size_of_node? found
  have zero : id.index = 0 := by omega
  simp only [node?, ofKind, zero] at found
  cases found
  rfl

/-- Nobody holds anything in a new tree. -/
theorem hold_ofKind (kind : StatementKind) (id : NodeId) : (ofKind kind).hold id = {} := by
  by_cases first : id.index = 0
  · simp [hold, ofKind, first]
  · refine hold_of_size_le ?_
    rw [size_ofKind]
    omega

theorem node?_push
    (tree : Tree)
    (node : Node)
    (id : NodeId) :
    (tree.push node).node? id = if id.index = tree.size then some node else tree.node? id := by
  unfold node? push size
  exact Array.getElem?_push

@[simp] theorem node?_push_size (tree : Tree) (node : Node) :
    (tree.push node).node? ⟨tree.size⟩ = some node := by
  simp [node?_push]

theorem node?_push_of_some
    {tree : Tree}
    {id : NodeId}
    {found : Node}
    (node : Node)
    (present : tree.node? id = some found) :
    (tree.push node).node? id = some found := by
  have below := lt_size_of_node? present
  rw [node?_push, if_neg (by omega), present]

@[simp] theorem hold_push
    (tree : Tree)
    (node : Node)
    (id : NodeId) :
    (tree.push node).hold id = tree.hold id := by
  simp only [hold, push, Array.getElem?_push, tree.holds_size]
  split
  · next atEnd =>
      have outside : tree.holds[id.index]? = none := by
        rw [Array.getElem?_eq_none_iff, tree.holds_size]
        omega
      simp [outside]
  · rfl

@[simp] theorem isFrozen_push
    (tree : Tree)
    (node : Node)
    (id : NodeId) :
    (tree.push node).isFrozen id = tree.isFrozen id := by
  simp [isFrozen, frozenBy]

/-! ## After replacing a node -/

theorem node?_replace
    (tree : Tree)
    (changed : NodeId)
    (node : Node)
    (id : NodeId) :
    (tree.replace changed node).node? id =
      if id = changed then (tree.node? id).map fun _ => node else tree.node? id := by
  simp only [node?, replace, Array.getElem?_setIfInBounds]
  by_cases same : id = changed
  · subst same
    by_cases below : id.index < tree.nodes.size <;> simp [below]
  · have differs : changed.index ≠ id.index := by
      intro equal
      apply same
      cases id
      cases changed
      simp_all
    simp [same, differs]

theorem node?_replace_self
    {tree : Tree}
    {id : NodeId}
    {found : Node}
    (node : Node)
    (present : tree.node? id = some found) :
    (tree.replace id node).node? id = some node := by
  simp [node?_replace, present]

theorem node?_replace_of_ne
    {tree : Tree}
    {changed id : NodeId}
    (node : Node)
    (differs : id ≠ changed) :
    (tree.replace changed node).node? id = tree.node? id := by
  simp [node?_replace, differs]

@[simp] theorem hold_replace
    (tree : Tree)
    (changed : NodeId)
    (node : Node)
    (id : NodeId) :
    (tree.replace changed node).hold id = tree.hold id := rfl

/-! ## After replacing a hold -/

@[simp] theorem node?_setHold
    (tree : Tree)
    (changed : NodeId)
    (hold : Hold)
    (id : NodeId) :
    (tree.setHold changed hold).node? id = tree.node? id := rfl

theorem hold_setHold
    {tree : Tree}
    {changed : NodeId}
    (hold : Hold)
    (present : tree.contains changed = true)
    (id : NodeId) :
    (tree.setHold changed hold).hold id = if id = changed then hold else tree.hold id := by
  have below : changed.index < tree.holds.size := by
    rw [tree.holds_size]
    exact contains_iff.mp present
  simp only [Tree.hold, setHold, Array.getElem?_setIfInBounds]
  by_cases same : id = changed
  · subst same
    simp [below]
  · have differs : changed.index ≠ id.index := by
      intro equal
      apply same
      cases id
      cases changed
      simp_all
    simp [same, differs]

end Tree
end QueryGraph
