/-!
# Tags

A tag says what a node is meant to be. It is a sequence of bytes, because a tag may
hold escaped bytes that encode no text. A tag that begins with an exclamation mark
belongs to an application; of the others, only those of four core types have a
meaning of their own.
-/

namespace QueryGraph
namespace Yaml

/-- What a node is meant to be. -/
inductive Tag
  /-- A tag of an application, by its text after the exclamation mark. -/
  | application (name : String)
  /-- A tag of an application whose bytes encode no text. -/
  | nameless
  | bool
  | integer
  | float
  | null
  /-- Any other tag. -/
  | foreign
  deriving DecidableEq, Repr

namespace Tag

/-- The bytes before the name of a core type. -/
def coreNamespace : List UInt8 := "tag:yaml.org,2002:".toUTF8.toList

/-- The core types that have a meaning, by name. -/
def coreTags : List (String × Tag) :=
  [("bool", .bool), ("int", .integer), ("float", .float), ("null", .null)]

/-- The tag that bytes spell out. -/
def ofBytes : List UInt8 -> Tag
  | 0x21 :: name =>
      match String.fromUTF8? ⟨name.toArray⟩ with
      | some name => .application name
      | none => .nameless
  | bytes =>
      match coreTags.find? fun core => coreNamespace ++ core.1.toUTF8.toList == bytes with
      | some core => core.2
      | none => .foreign

/-- Whether a tag is the named tag of an application. -/
def isApplication : Tag -> Bool
  | .application _ => true
  | _ => false

end Tag
end Yaml
end QueryGraph
