import QueryGraph.Yaml.Text

/-!
# Tokens of a YAML stream

Block structure is explicit in the tokens: indentation has become start and end
tokens, and a key that was only recognised at its colon has its own token.
-/

namespace QueryGraph
namespace Yaml

/-- How a scalar was written. -/
inductive Style
  | plain
  | quoted
  | literal
  | folded
  deriving DecidableEq, Repr

/-- A tag as written: a handle that a directive may declare, and the bytes after it. -/
structure TagText where
  handle : String
  suffix : List UInt8
  deriving DecidableEq, Repr

/-- A unit of a YAML stream. -/
inductive Token
  | versionDirective
      (major minor : Nat)
  | tagDirective
      (handle : String)
      (expansion : List UInt8)
  | documentStart
  | documentEnd
  | blockSequenceStart
  | blockMappingStart
  | blockEnd
  | flowSequenceStart
  | flowSequenceEnd
  | flowMappingStart
  | flowMappingEnd
  | blockEntry
  | flowEntry
  | key
  | value
  | reference (name : String)
  | anchor (name : String)
  | tag (text : TagText)
  | scalar
      (style : Style)
      (text : String)
  | streamEnd
  deriving DecidableEq, Repr

/-- A token with the place where it begins and the place after it. -/
structure Lexeme where
  token : Token
  start : Mark
  stop : Mark
  deriving DecidableEq, Repr

end Yaml
end QueryGraph
