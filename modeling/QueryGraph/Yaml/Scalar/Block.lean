import QueryGraph.Yaml.Text

/-!
# Block scalars

A block scalar follows a header line. Its lines share an indentation, given in
the header or found at the first line with content. A literal scalar keeps its
line breaks, a folded one joins lines that do not begin with a blank, and the
header says what happens to the breaks at the end.
-/

namespace QueryGraph
namespace Yaml

/-- What becomes of the line breaks at the end of a block scalar. -/
inductive Chomping
  | strip
  | clip
  | keep
  deriving DecidableEq, Repr

/-- The header of a block scalar. -/
structure BlockHeader where
  chomping : Chomping := .clip
  /-- The indentation given, relative to the enclosing block. -/
  increment : Option Nat := none

/-- Reads the chomping sign. -/
def chomping? : Char -> Option Chomping
  | '-' => some .strip
  | '+' => some .keep
  | _ => none

/-- Reads an indentation digit. -/
def increment? (character : Char) : Option Nat :=
  if character.isDigit then some (character.toNat - '0'.toNat) else none

/-- Takes the next character if it has a meaning. -/
def Cursor.leading
    (meaning? : Char -> Option α)
    (cursor : Cursor) : Option α × Cursor :=
  match cursor.rest.head?.bind meaning? with
  | some meaning => (some meaning, cursor.drop 1)
  | none => (none, cursor)

/-- Reads the indicators of a header, in either order. An indentation may not be zero. -/
def Cursor.blockIndicators
    (start : Mark)
    (cursor : Cursor) : Except Defect (BlockHeader × Cursor) := do
  let (sign, cursor) := cursor.leading chomping?
  let place := cursor.mark
  let (increment, cursor) := cursor.leading increment?
  if increment == some 0 then .error (.during .blockScalar start place .zeroIndentation)
  let (laterSign, cursor) :=
    if sign.isNone && increment.isSome then cursor.leading chomping? else (none, cursor)
  return (⟨(sign <|> laterSign).getD .clip, increment⟩, cursor)

/-- Reads a header up to and including its line break. -/
def Cursor.blockHeader
    (start : Mark)
    (cursor : Cursor) : Except Defect (BlockHeader × Cursor) := do
  let (header, cursor) ← cursor.blockIndicators start
  let (_, cursor) := cursor.span isBlank
  let cursor :=
    if cursor.rest.head? == some '#' then (cursor.span fun c => !isBreak c).2 else cursor
  match cursor.rest with
  | [] => .ok (header, cursor)
  | character :: _ =>
      if isBreak character then .ok (header, cursor.drop 1)
      else .error (.during .blockScalar start cursor.mark .trailingText)

/-- The lines read so far, newest character first, and the breaks after them. -/
structure BlockLines where
  text : List Char := []
  /-- The break that ended the last line with content. -/
  leading : List Char := []
  /-- The breaks of the empty lines after it, newest first. -/
  trailing : List Char := []
  /-- Whether the last line with content began with a blank. -/
  blankStart : Bool := false

/-- Joins the next line, which begins with the given character. -/
def BlockLines.join
    (lines : BlockLines)
    (folds : Bool)
    (character : Char) : BlockLines :=
  let text :=
    if folds && lines.leading == ['\n'] && !lines.blankStart && !isBlank character then
      if lines.trailing.isEmpty then ' ' :: lines.text else lines.trailing ++ lines.text
    else lines.trailing ++ (lines.leading ++ lines.text)
  { text := text, blankStart := isBlank character }

/-- The whole text, with the breaks at its end treated as the header asks. -/
def BlockLines.finish
    (lines : BlockLines)
    (chomping : Chomping) : String :=
  let text :=
    match chomping with
    | .strip => lines.text
    | .clip => lines.leading ++ lines.text
    | .keep => lines.trailing ++ (lines.leading ++ lines.text)
  String.ofList text.reverse

/-- The indentation found when the header gives none. -/
def foundIndentation (parentIndent : Int) (widest : Nat) : Nat :=
  max (max widest (parentIndent + 1).toNat) 1

/-- Reads the lines of a block scalar. `indent` is unknown until the first line
with content, and `inLine` tells whether that content is being read. -/
def blockFrom
    (start : Mark)
    (folds : Bool)
    (parentIndent : Int) :
    (rest : List Char) ->
    (mark : Mark) ->
    (indent : Option Nat) ->
    (widest : Nat) ->
    (inLine : Bool) ->
    (lines : BlockLines) ->
    Except Defect (BlockLines × Cursor)
  | [], mark, _, _, _, lines => .ok (lines, ⟨[], mark⟩)
  | character :: rest, mark, indent, widest, inLine, lines =>
      let next := mark.next character
      if inLine then
        if isBreak character then
          blockFrom start folds parentIndent rest next indent widest false
            { lines with leading := [character] }
        else
          blockFrom start folds parentIndent rest next indent widest true
            { lines with text := character :: lines.text }
      else
        let inMargin := indent.all fun indent => mark.column < indent
        if inMargin && character == ' ' then
          blockFrom start folds parentIndent rest next indent (max widest next.column) false lines
        else if inMargin && character == '\t' then
          .error (.during .blockScalar start mark .tabBeforeText)
        else if isBreak character then
          blockFrom start folds parentIndent rest next indent widest false
            { lines with trailing := character :: lines.trailing }
        else
          let indent := indent.getD (foundIndentation parentIndent widest)
          if mark.column == indent then
            let lines := lines.join folds character
            blockFrom start folds parentIndent rest next (some indent) widest true
              { lines with text := character :: lines.text }
          else .ok (lines, ⟨character :: rest, mark⟩)

/-- Reads a block scalar whose indicator is at the cursor. -/
def Cursor.blockScalar
    (folds : Bool)
    (parentIndent : Int)
    (cursor : Cursor) : Except Defect (String × Cursor) := do
  let start := cursor.mark
  let (header, cursor) ← (cursor.drop 1).blockHeader start
  let indent := header.increment.map fun increment =>
    if parentIndent < 0 then increment else parentIndent.toNat + increment
  let (lines, cursor) ←
    blockFrom start folds parentIndent cursor.rest cursor.mark indent 0 false {}
  return (lines.finish header.chomping, cursor)

end Yaml
end QueryGraph
