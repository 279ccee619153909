import QueryGraph.Tree.Basic

/-!
# Holding nodes

A compilation holds every node that it reads. Holds are counted, so that a node
read twice stays held until both holds are given back. A node has at most one
holder, and a held node accepts no change.
-/

namespace QueryGraph
namespace Tree

/-- Takes a hold on a node. -/
def freeze
    (node : NodeId)
    (owner : Owner) : EStateM FreezeError Tree Unit := do
  let tree ← get
  if tree.contains node then
    let hold := tree.hold node
    match hold.owner with
    | some current =>
        if current = owner then
          set (tree.setHold node ⟨some owner, hold.count + 1⟩)
        else throw (.frozenByOther node current)
    | none => set (tree.setHold node ⟨some owner, hold.count + 1⟩)
  else throw (.unknownNode node)

/-- Gives back a hold on a node. With the last hold the node becomes free. -/
def unfreeze
    (node : NodeId)
    (owner : Owner) : EStateM FreezeError Tree Unit := do
  let tree ← get
  if tree.contains node then
    let hold := tree.hold node
    match hold.owner with
    | none => throw (.notFrozen node)
    | some current =>
        if current = owner then
          let count := hold.count - 1
          set (tree.setHold node ⟨if count = 0 then none else some owner, count⟩)
        else throw (.notOwner node current owner)
  else throw (.unknownNode node)

/-- Gives back a list of holds. All of them are attempted, and the first failure
is reported. -/
def unfreezeAll
    (owner : Owner) : List NodeId -> Tree -> Except FreezeError Unit × Tree
  | [], tree => (.ok (), tree)
  | node :: nodes, tree =>
      match unfreeze node owner tree with
      | .ok () tree => unfreezeAll owner nodes tree
      | .error error tree => (.error error, (unfreezeAll owner nodes tree).2)

end Tree

/-- The holds taken on behalf of one owner, newest first. -/
structure Guard where
  owner : Owner
  held : List NodeId := []
  deriving DecidableEq, Repr

namespace Guard

/-- Takes a hold and remembers it. A refused hold is not remembered. -/
def freeze (guard : Guard) (node : NodeId) : EStateM FreezeError Tree Guard := do
  Tree.freeze node guard.owner
  return { guard with held := node :: guard.held }

/-- Gives back every hold, newest first. -/
def release (guard : Guard) (tree : Tree) : Except FreezeError Unit × Tree :=
  Tree.unfreezeAll guard.owner guard.held tree

end Guard
end QueryGraph
