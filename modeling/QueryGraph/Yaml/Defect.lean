/-!
# Defects of a text

A text that is no YAML stream has a defect: something is wrong at a place of the text,
mostly while something was being read that begins at an earlier place. The wording
tells all three. Lines and columns are counted from one, and the very beginning of a
text is not told.
-/

namespace QueryGraph
namespace Yaml

/-- A place in a text. -/
structure Mark where
  /-- The number of bytes before the place. -/
  index : Nat := 0
  line : Nat := 0
  column : Nat := 0
  deriving DecidableEq, Repr, Inhabited

/-- The wording of a place, unless it is the beginning of the text. -/
def Mark.told (mark : Mark) : String :=
  if mark.line == 0 && mark.column == 0 then ""
  else " at line " ++ toString (mark.line + 1) ++ " column " ++ toString (mark.column + 1)

/-- What is wrong with a text. -/
inductive Fault
  /-- A character that may not stand in a YAML text, after a number of bytes. -/
  | unprintable (offset : Nat)
  /-- A character that begins no token. -/
  | unexpectedCharacter
  /-- A key that had to be followed by a colon on its line. -/
  | missingColon
  | misplacedEntry
  | misplacedKey
  | misplacedValue
  | missingDirectiveName
  | badDirectiveName
  | unknownDirective
  /-- Something other than a comment at the end of a line. -/
  | trailingText
  | missingVersion
  | longVersion
  | badVersionMark
  | foreignVersion
  | repeatedVersion
  | repeatedHandle
  | unknownHandle
  /-- An exclamation mark is missing at an end of a handle. -/
  | openHandle
  | missingBlank
  | missingBlankOrBreak
  | badAnchor
  | unclosedTag
  | emptyTag
  | badTagByte
  | badLeadingByte
  | badTrailingByte
  | zeroIndentation
  /-- A tab before the text of a line whose indentation is not known yet. -/
  | tabBeforeText
  /-- A tab that makes up the indentation of a line. -/
  | tabInIndentation
  /-- A document marker inside a quoted scalar. -/
  | markerInQuotes
  /-- A quoted scalar without its closing quote. -/
  | unclosedQuote
  | unknownEscape
  | badHexadecimal
  | badCodePoint
  | unexpectedColon
  | missingDocumentStart
  | missingContent
  | missingEntry
  | missingKey
  | missingItem
  | missingMember
  /-- An alias for an anchor that was not written before it. -/
  | unknownAnchor
  /-- More steps than there are characters or tokens. -/
  | unfinished
  deriving DecidableEq, Repr

/-- The wording of a fault. -/
def Fault.phrase : Fault -> String
  | .unprintable offset =>
      "control characters are not allowed" ++
        if offset == 0 then "" else " at position " ++ toString offset
  | .unexpectedCharacter => "found character that cannot start any token"
  | .missingColon => "could not find expected ':'"
  | .misplacedEntry => "block sequence entries are not allowed in this context"
  | .misplacedKey => "mapping keys are not allowed in this context"
  | .misplacedValue => "mapping values are not allowed in this context"
  | .missingDirectiveName => "could not find expected directive name"
  | .badDirectiveName => "found unexpected non-alphabetical character"
  | .unknownDirective => "found unknown directive name"
  | .trailingText => "did not find expected comment or line break"
  | .missingVersion => "did not find expected version number"
  | .longVersion => "found extremely long version number"
  | .badVersionMark => "did not find expected digit or '.' character"
  | .foreignVersion => "found incompatible YAML document"
  | .repeatedVersion => "found duplicate %YAML directive"
  | .repeatedHandle => "found duplicate %TAG directive"
  | .unknownHandle => "found undefined tag handle"
  | .openHandle => "did not find expected '!'"
  | .missingBlank => "did not find expected whitespace"
  | .missingBlankOrBreak => "did not find expected whitespace or line break"
  | .badAnchor => "did not find expected alphabetic or numeric character"
  | .unclosedTag => "did not find the expected '>'"
  | .emptyTag => "did not find expected tag URI"
  | .badTagByte => "did not find URI escaped octet"
  | .badLeadingByte => "found an incorrect leading UTF-8 octet"
  | .badTrailingByte => "found an incorrect trailing UTF-8 octet"
  | .zeroIndentation => "found an indentation indicator equal to 0"
  | .tabBeforeText => "found a tab character where an indentation space is expected"
  | .tabInIndentation => "found a tab character that violates indentation"
  | .markerInQuotes => "found unexpected document indicator"
  | .unclosedQuote => "found unexpected end of stream"
  | .unknownEscape => "found unknown escape character"
  | .badHexadecimal => "did not find expected hexdecimal number"
  | .badCodePoint => "found invalid Unicode character escape code"
  | .unexpectedColon => "found unexpected ':'"
  | .missingDocumentStart => "did not find expected <document start>"
  | .missingContent => "did not find expected node content"
  | .missingEntry => "did not find expected '-' indicator"
  | .missingKey => "did not find expected key"
  | .missingItem => "did not find expected ',' or ']'"
  | .missingMember => "did not find expected ',' or '\x7d'"
  | .unknownAnchor => "unknown anchor"
  | .unfinished => "too many steps"

/-- What was being read when something turned out to be wrong. -/
inductive Activity
  | token
  | simpleKey
  | directive
  | versionDirective
  | tagDirective
  | handleStart
  | handleEnd
  | handleMeaning
  | anchor
  | reference
  | tag
  | tagText
  | blockScalar
  | quotedScalar
  | quotedEscape
  | plainScalar
  | node
  | blockNode
  | flowNode
  | blockSequence
  | blockMapping
  | flowSequence
  | flowMapping
  deriving DecidableEq, Repr

/-- The wording of an activity. -/
def Activity.phrase : Activity -> String
  | .token => "while scanning for the next token"
  | .simpleKey => "while scanning a simple key"
  | .directive => "while scanning a directive"
  | .versionDirective => "while scanning a %YAML directive"
  | .tagDirective => "while scanning a %TAG directive"
  | .handleStart => "while scanning a tag directive"
  | .handleEnd => "while parsing a tag directive"
  | .handleMeaning => "while parsing a %TAG directive"
  | .anchor => "while scanning an anchor"
  | .reference => "while scanning an alias"
  | .tag => "while scanning a tag"
  | .tagText => "while parsing a tag"
  | .blockScalar => "while scanning a block scalar"
  | .quotedScalar => "while scanning a quoted scalar"
  | .quotedEscape => "while parsing a quoted scalar"
  | .plainScalar => "while scanning a plain scalar"
  | .node => "while parsing a node"
  | .blockNode => "while parsing a block node"
  | .flowNode => "while parsing a flow node"
  | .blockSequence => "while parsing a block collection"
  | .blockMapping => "while parsing a block mapping"
  | .flowSequence => "while parsing a flow sequence"
  | .flowMapping => "while parsing a flow mapping"

/-- What is wrong with a text, where, and what was being read. -/
structure Defect where
  fault : Fault
  mark : Mark := {}
  /-- What was being read, and where it begins. -/
  activity : Option (Activity × Mark) := none
  deriving DecidableEq, Repr

namespace Defect

/-- Something wrong while an activity that begins at a place. -/
def during
    (activity : Activity)
    (start : Mark)
    (mark : Mark)
    (fault : Fault) : Defect :=
  ⟨fault, mark, some (activity, start)⟩

/-- The wording of a defect. The beginning of what was being read is told unless it is
the place of the defect itself. -/
def message (defect : Defect) : String :=
  defect.fault.phrase ++ defect.mark.told ++
    match defect.activity with
    | none => ""
    | some (activity, start) =>
        ", " ++ activity.phrase ++
          if start.line == defect.mark.line && start.column == defect.mark.column then ""
          else start.told

end Defect
end Yaml
end QueryGraph
