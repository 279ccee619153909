import QueryGraph.Yaml.Complaint
import QueryGraph.Yaml.Node

/-!
# Readings of a document

A reading takes what it wants from the nodes of a document in the order in which they
are written, and follows references where it meets them. A short document can stand for
a huge one when its references lead to collections with further references, so the
number of references that are followed is limited.
-/

namespace QueryGraph
namespace Yaml

/-- What is known of a node while it is read: its document, and the path to it from the
last step to the first. -/
structure Setting where
  document : Serialization
  path : List Step := []

/-- What can be taken from a document while some number of references may still be
followed. -/
abbrev Reading := ReaderT Setting (StateT Nat (Except Complaint))

namespace Reading

/-- Finds a node unfit. -/
def unfit (misfit : Misfit) : Reading α :=
  throw (.unfit misfit none)

/-- Finds that a node is missing, because of the defect of the text. -/
def absent : Reading α := do
  match (← read).document.defect with
  | some defect => throw (.malformed defect)
  | none => throw .unfinished

/-- The node that a node leads to: the target of a reference, and any other node
itself. A missing node leads to the defect of the text. -/
def follow : Node -> Reading Node
  | .reference _ number => fun setting remaining =>
      match remaining, setting.document.find? number with
      | remaining + 1, some target => .ok (target, remaining)
      | _, _ => .error .tooManyReferences
  | .missing => absent
  | node => pure node

/-- A reading whose misfits are met at a place. -/
def located (mark : Mark) (reading : Reading α) : Reading α := fun setting remaining =>
  (reading setting remaining).mapError (Complaint.locate mark setting.path)

/-- A reading of a node one step further down. -/
def within (step : Step) (reading : Reading α) : Reading α :=
  withReader (fun setting => { setting with path := step :: setting.path }) reading

/-- The number of references that may be followed for every node of a document. -/
def followsPerNode : Nat := 100

/-- What a reading takes from the outermost node of a document. A defect after the nodes
that were read, or another document, is met last. -/
def run (read : Node -> Reading α) (document : Serialization) : Except Complaint α := do
  let (value, _) ← read document.root { document } (followsPerNode * document.root.size)
  match document.defect with
  | some defect => throw (.malformed defect)
  | none => if document.followed then throw .severalDocuments else return value

end Reading
end Yaml
end QueryGraph
