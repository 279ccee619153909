import QueryGraph.Yaml.Tag
import QueryGraph.Yaml.Token

/-!
# Documents

A node is a scalar, a sequence or a mapping, each with the place where it begins and
the tag that was written on it, or it refers to a node that is written elsewhere in the
document. A reference may lead to a collection that contains it, so the nodes of a
document need not form a finite tree once their references are followed.

A text with a defect still has the nodes before the defect. Every collection that was
open there ends with the missing node.
-/

namespace QueryGraph
namespace Yaml

/-- A node of a document. -/
inductive Node
  | scalar
      (mark : Mark)
      (tag : Option Tag)
      (style : Style)
      (text : String)
  | sequence
      (mark : Mark)
      (tag : Option Tag)
      (items : List Node)
  | mapping
      (mark : Mark)
      (tag : Option Tag)
      (entries : List (Node × Node))
  /-- The node with a numbered anchor. -/
  | reference
      (mark : Mark)
      (number : Nat)
  /-- The node that a defect kept from being read. -/
  | missing
  deriving Repr

namespace Node

/-- The scalar that stands where nothing was written. -/
def empty (mark : Mark) (tag : Option Tag) : Node := .scalar mark tag .plain ""

/-- Where a node begins. -/
def mark : Node -> Mark
  | .scalar mark _ _ _ | .sequence mark _ _ | .mapping mark _ _ | .reference mark _ => mark
  | .missing => {}

/-- The number of scalars, references, and beginnings and ends of collections. -/
def size : Node -> Nat
  | .scalar _ _ _ _ | .reference _ _ => 1
  | .sequence _ _ items => itemsSize items + 2
  | .mapping _ _ entries => entriesSize entries + 2
  | .missing => 0
where
  /-- The size of a list of nodes. -/
  itemsSize : List Node -> Nat
    | [] => 0
    | node :: nodes => node.size + itemsSize nodes
  /-- The size of the keys and values of a mapping. -/
  entriesSize : List (Node × Node) -> Nat
    | [] => 0
    | (key, value) :: entries => key.size + value.size + entriesSize entries

end Node

/-- A document as written: its outermost node, and the nodes with anchors, each with
its number and in the order in which they begin. -/
structure Serialization where
  root : Node
  anchored : List (Nat × Node) := []
  /-- What is wrong with the text after the nodes that were read. -/
  defect : Option Defect := none
  /-- Whether another document follows. -/
  followed : Bool := false
  deriving Repr

/-- The node that a number refers to, which is the last one to have it. -/
def Serialization.find? (document : Serialization) (number : Nat) : Option Node :=
  document.anchored.reverse.lookup number

end Yaml
end QueryGraph
