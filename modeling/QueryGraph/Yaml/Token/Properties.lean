import QueryGraph.Yaml.Token

/-!
# Anchors, aliases, tags and directives

The small tokens that begin with an indicator of their own and end at a blank.
-/

namespace QueryGraph
namespace Yaml

/-- Whether an anchor name may end here. -/
def endsAnchor : List Char -> Bool
  | [] => true
  | character :: rest =>
      startsBlank (character :: rest) || "?:,]%@".contains character ||
        character == '\x7d' || character == '\x60'

/-- Reads the name of an anchor or alias after its indicator. -/
def Cursor.anchorName
    (activity : Activity)
    (cursor : Cursor) : Except Defect (String × Cursor) :=
  let start := cursor.mark
  let (name, cursor) := (cursor.drop 1).span isWord
  if name.isEmpty || !endsAnchor cursor.rest then
    .error (.during activity start cursor.mark .badAnchor)
  else .ok (String.ofList name, cursor)

/-- A character of a tag. A verbatim tag also admits commas and brackets. -/
def isTagCharacter (verbatim : Bool) (character : Char) : Bool :=
  isWord character || ";/?:@&=+$.!~*'()%".contains character ||
    verbatim && (character == ',' || character == '[' || character == ']')

/-- The number of bytes that complete a character after its first byte. -/
def bytesAfter? (first : Nat) : Option Nat :=
  if first < 0x80 then some 0
  else if 0xc0 ≤ first && first < 0xe0 then some 1
  else if 0xe0 ≤ first && first < 0xf0 then some 2
  else if 0xf0 ≤ first && first < 0xf8 then some 3
  else none

/-- How many bytes of a group are still to come after an escaped byte, given how many
were to come before it. The first byte of a group says how many others complete it. -/
def bytesDue (due byte : Nat) : Except Fault Nat :=
  match due with
  | 0 =>
      match bytesAfter? byte with
      | some due => .ok due
      | none => .error .badLeadingByte
  | due + 1 => if 0x80 ≤ byte && byte < 0xc0 then .ok due else .error .badTrailingByte

/-- Reads the bytes of a tag, with every escaped byte decoded. Escaped bytes stand in
groups, of which `due` bytes are still to come. -/
def tagBytes
    (verbatim : Bool)
    (fail : Mark -> Fault -> Defect) :
    (due : Nat) ->
    (rest : List Char) ->
    (mark : Mark) ->
    Except Defect (List UInt8 × Cursor)
  | 0, [], mark => .ok ([], ⟨[], mark⟩)
  | _ + 1, [], mark => .error (fail mark .badTagByte)
  | due, '%' :: rest, mark =>
      match rest with
      | high :: low :: rest =>
          match hexDigit? high, hexDigit? low with
          | some high, some low =>
              let byte := 16 * high + low
              match bytesDue due byte with
              | .error fault => .error (fail mark fault)
              | .ok due => do
                  let after : Mark := ⟨mark.index + 3, mark.line, mark.column + 3⟩
                  let (bytes, cursor) ← tagBytes verbatim fail due rest after
                  return (UInt8.ofNat byte :: bytes, cursor)
          | _, _ => .error (fail mark .badTagByte)
      | _ => .error (fail mark .badTagByte)
  | 0, character :: rest, mark =>
      if isTagCharacter verbatim character then do
        let (bytes, cursor) ← tagBytes verbatim fail 0 rest (mark.next character)
        return (UInt8.ofNat character.toNat :: bytes, cursor)
      else .ok ([], ⟨character :: rest, mark⟩)
  | _ + 1, _ :: _, mark => .error (fail mark .badTagByte)

/-- Reads a piece of a tag. A byte of zero ends the piece early. -/
def Cursor.tagPiece
    (verbatim mayBeEmpty : Bool)
    (fail : Mark -> Fault -> Defect)
    (cursor : Cursor) : Except Defect (List UInt8 × Cursor) := do
  let (bytes, after) ← tagBytes verbatim fail 0 cursor.rest cursor.mark
  if bytes.isEmpty && !mayBeEmpty then .error (fail after.mark .emptyTag)
  else return (bytes.takeWhile fun byte => byte != 0, after)

/-- Whether a tag may end here. -/
def endsTag (inFlow : Bool) (rest : List Char) : Bool :=
  startsBlank rest || inFlow && rest.head? == some ','

/-- Reads a tag whose exclamation mark is at the cursor. A tag is written out in
angle brackets, or abbreviated by a handle between exclamation marks, or local. A
local tag without a name is the exclamation mark itself. -/
def Cursor.tagText (inFlow : Bool) (cursor : Cursor) : Except Defect (TagText × Cursor) := do
  let start := cursor.mark
  let fail := Defect.during .tagText start
  let (tag, cursor) ←
    match cursor.rest with
    | _ :: '<' :: _ => do
        let (suffix, cursor) ← (cursor.drop 2).tagPiece true false fail
        if cursor.rest.head? != some '>' then
          .error (.during .tag start cursor.mark .unclosedTag)
        else pure (TagText.mk "" suffix, cursor.drop 1)
    | _ => do
        let (name, afterName) := (cursor.drop 1).span isWord
        if afterName.rest.head? == some '!' then
          let (suffix, cursor) ← (afterName.drop 1).tagPiece false false fail
          pure (TagText.mk ("!" ++ String.ofList name ++ "!") suffix, cursor)
        else
          let (suffix, cursor) ← (cursor.drop 1).tagPiece false true fail
          pure (if suffix.isEmpty then TagText.mk "" [0x21] else TagText.mk "!" suffix, cursor)
  if endsTag inFlow cursor.rest then return (tag, cursor)
  else .error (.during .tag start cursor.mark .missingBlankOrBreak)

/-- Reads the rest of a directive line, which may only hold a comment. -/
def Cursor.endDirective (start : Mark) (cursor : Cursor) : Except Defect Cursor :=
  let (_, cursor) := cursor.span isBlank
  let cursor :=
    if cursor.rest.head? == some '#' then (cursor.span fun c => !isBreak c).2 else cursor
  match cursor.rest with
  | [] => .ok cursor
  | character :: _ =>
      if isBreak character then .ok (cursor.drop 1)
      else .error (.during .directive start cursor.mark .trailingText)

/-- Reads a part of a version, which has at most nine digits. -/
def Cursor.versionPart (start : Mark) (cursor : Cursor) : Except Defect (Nat × Cursor) :=
  let (digits, after) := cursor.span Char.isDigit
  if 9 < digits.length then
    .error (.during .versionDirective start (cursor.drop 9).mark .longVersion)
  else
    match (String.ofList digits).toNat? with
    | some value => .ok (value, after)
    | none => .error (.during .versionDirective start after.mark .missingVersion)

/-- Reads a version. -/
def Cursor.version (start : Mark) (cursor : Cursor) : Except Defect (Token × Cursor) := do
  let (major, cursor) ← cursor.versionPart start
  if cursor.rest.head? != some '.' then
    .error (.during .versionDirective start cursor.mark .badVersionMark)
  let (minor, cursor) ← (cursor.drop 1).versionPart start
  return (.versionDirective major minor, cursor)

/-- Reads a handle and what it stands for. A handle is an exclamation mark, or a word
between two of them. -/
def Cursor.handle (start : Mark) (cursor : Cursor) : Except Defect (Token × Cursor) := do
  if cursor.rest.head? != some '!' then
    .error (.during .handleStart start cursor.mark .openHandle)
  let (name, cursor) := (cursor.drop 1).span isWord
  let isClosed := cursor.rest.head? == some '!'
  if !name.isEmpty && !isClosed then
    .error (.during .handleEnd start cursor.mark .openHandle)
  let cursor := if isClosed then cursor.drop 1 else cursor
  let (gap, cursor) := cursor.span isBlank
  if gap.isEmpty then .error (.during .tagDirective start cursor.mark .missingBlank)
  let (expansion, cursor) ← cursor.tagPiece true false (.during .handleMeaning start)
  if !startsBlank cursor.rest then
    .error (.during .tagDirective start cursor.mark .missingBlankOrBreak)
  let handle := "!" ++ String.ofList name ++ if isClosed then "!" else ""
  return (.tagDirective handle expansion, cursor)

/-- Reads a directive whose percent sign is at the cursor. -/
def Cursor.directive (cursor : Cursor) : Except Defect (Token × Cursor) := do
  let start := cursor.mark
  let (name, cursor) := (cursor.drop 1).span isWord
  if name.isEmpty then .error (.during .directive start cursor.mark .missingDirectiveName)
  if !startsBlank cursor.rest then
    .error (.during .directive start cursor.mark .badDirectiveName)
  let (_, afterBlanks) := cursor.span isBlank
  let (token, cursor) ←
    if String.ofList name == "YAML" then afterBlanks.version start
    else if String.ofList name == "TAG" then afterBlanks.handle start
    else .error (.during .directive start cursor.mark .unknownDirective)
  return (token, ← cursor.endDirective start)

end Yaml
end QueryGraph
