import QueryGraph.Binary64.Shortest
import QueryGraph.Unicode.Quoted
import QueryGraph.Yaml.Defect

/-!
# Complaints about a document

Why something cannot be taken from a document. The text may have a defect, or a node may
be unfit for what is wanted of it. The wording of the latter says what was found and what
was expected, behind the path from the outermost node and before the place of the node.
-/

namespace QueryGraph
namespace Yaml

/-- What a node was found to be. -/
inductive Finding
  | null
  | bool (value : Bool)
  | integer (value : Int)
  /-- An integer beyond the range of documents. -/
  | wideInteger (value : Int)
  | float (value : Binary64)
  | text (content : String)
  | sequence
  | mapping
  deriving DecidableEq, Repr

/-- The text of a number with a point. -/
def pointed (number : Binary64) : String :=
  let text := number.toText
  if number.isFinite && !text.contains '.' then text ++ ".0" else text

/-- A name between its marks. -/
def markedName (name : String) : String := "\x60" ++ name ++ "\x60"

/-- The wording of a finding. -/
def Finding.phrase : Finding -> String
  | .null => "unit value"
  | .bool value => "boolean " ++ markedName (if value then "true" else "false")
  | .integer value => "integer " ++ markedName (toString value)
  | .wideInteger value =>
      "integer " ++ markedName (toString value) ++ if value < 0 then " as i128" else " as u128"
  | .float value => "floating point " ++ markedName (pointed value)
  | .text content => "string " ++ Unicode.quoted content
  | .sequence => "sequence"
  | .mapping => "map"

/-- Why a node is unfit. -/
inductive Misfit
  /-- A node of the wrong type. -/
  | wrongType
      (found : Finding)
      (expected : String)
  /-- A scalar whose text does not fit its tag. -/
  | wrongText
      (text : String)
      (expected : String)
  | missingMember (name : String)
  | repeatedMember (name : String)
  | unknownWord
      (word : String)
      (words : List String)
  /-- The tag of an application where only values may stand. -/
  | applicationTag
  deriving DecidableEq, Repr

/-- The wording of a choice between some words. -/
def choiceOf : List String -> String
  | [word] => markedName word
  | [first, second] => markedName first ++ " or " ++ markedName second
  | words => "one of " ++ ", ".intercalate (words.map markedName)

/-- The wording of a misfit. -/
def Misfit.phrase : Misfit -> String
  | .wrongType found expected => "invalid type: " ++ found.phrase ++ ", expected " ++ expected
  | .wrongText text expected =>
      "invalid value: string " ++ Unicode.quoted text ++ ", expected " ++ expected
  | .missingMember name => "missing field " ++ markedName name
  | .repeatedMember name => "duplicate field " ++ markedName name
  | .unknownWord word words =>
      "unknown variant " ++ markedName word ++ ", expected " ++ choiceOf words
  | .applicationTag => "unexpected tag of an application"

/-- A step from a collection to a node in it. -/
inductive Step
  | item (index : Nat)
  | member (name : String)
  /-- A member whose key is not written as a scalar. -/
  | unnamed
  deriving DecidableEq, Repr

/-- The wording of a path, which is given from its last step to its first. -/
def pathText : List Step -> String
  | [] => "."
  | .item index :: above => pathText above ++ "[" ++ toString index ++ "]"
  | .member name :: above => stem above ++ name
  | .unnamed :: above => stem above ++ "?"
where
  /-- The path to a mapping, before a step to a member. -/
  stem : List Step -> String
    | [] => ""
    | above => pathText above ++ "."

/-- Where a misfit was met: the place and the path of the node that was to be read. -/
structure Whereabouts where
  mark : Mark
  path : List Step
  deriving DecidableEq, Repr

/-- Why something cannot be taken from a document. -/
inductive Complaint
  | malformed (defect : Defect)
  /-- The text ends before the document does. -/
  | unfinished
  /-- The text holds more than one document. -/
  | severalDocuments
  /-- Collections are nested too deeply. -/
  | tooDeep (mark : Mark)
  /-- Too many references are followed. -/
  | tooManyReferences
  | unfit
      (misfit : Misfit)
      (whereabouts : Option Whereabouts)
  deriving DecidableEq, Repr

namespace Complaint

/-- The wording of a complaint. -/
def message : Complaint -> String
  | .malformed defect => defect.message
  | .unfinished => "EOF while parsing a value"
  | .severalDocuments =>
      "deserializing from YAML containing more than one document is not supported"
  | .tooDeep mark => "recursion limit exceeded" ++ mark.told
  | .tooManyReferences => "repetition limit exceeded"
  | .unfit misfit none => misfit.phrase
  | .unfit misfit (some whereabouts) =>
      let path := pathText whereabouts.path
      (if path == "." then "" else path ++ ": ") ++ misfit.phrase ++ whereabouts.mark.told

/-- Adds where a misfit was met, unless that is known already. -/
def locate (mark : Mark) (path : List Step) : Complaint -> Complaint
  | .unfit misfit none => .unfit misfit (some ⟨mark, path⟩)
  | complaint => complaint

end Complaint
end Yaml
end QueryGraph
