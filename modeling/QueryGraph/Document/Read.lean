import QueryGraph.Document.Decode
import QueryGraph.Document.Error
import QueryGraph.Yaml.Node.OfTokens
import QueryGraph.Yaml.Value

/-!
# Documents from text

The outermost members of a document are found by the text of their keys, and its
kind is taken by its text. Every other member is read as a structured value.
-/

namespace QueryGraph
namespace QueryDocument

open Yaml

/-- The value of one outermost member. -/
def memberValue (name : String) : Yaml.Node -> Reading Value :=
  if name == "kind" then
    Reading.word (StatementKind.all.map fun kind => (kind.name, Value.text kind.name))
  else Reading.value (depthLimit - 1)

/-- The value of a whole document. -/
def valueOfNode (root : Yaml.Node) : Reading Value := do
  let members ← Reading.members memberValue root
  return .record (members.map fun (name, value) => (Key.name name, value))

/-- Reads a document from its text. A text without a document has only defaults. -/
def ofText (text : String) : Except DocumentError QueryDocument :=
  match Reading.run valueOfNode (Yaml.read text) with
  | .error _ => .error .unreadable
  | .ok value =>
      match decode? value with
      | some document => .ok document
      | none => .error .unreadable

end QueryDocument
end QueryGraph
