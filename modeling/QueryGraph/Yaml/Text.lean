import QueryGraph.Yaml.Defect

/-!
# Characters and positions of a YAML text

A text is a list of printable characters in which every line break that carries
no meaning of its own has become a line feed. The two Unicode separators stay as
they are, because folding keeps them.
-/

namespace QueryGraph
namespace Yaml

/-- What is left of a text, and where it begins. -/
structure Cursor where
  rest : List Char
  mark : Mark := {}
  deriving Repr, Inhabited

/-- A character that ends a line. -/
def isBreak (character : Char) : Bool :=
  character == '\n' || character == '\u2028' || character == '\u2029'

/-- A space or a tab. -/
def isBlank (character : Char) : Bool :=
  character == ' ' || character == '\t'

/-- Whether a text begins with a blank or a line break, or is empty. -/
def startsBlank : List Char -> Bool
  | [] => true
  | character :: _ => isBlank character || isBreak character

/-- A letter, a digit, an underscore or a hyphen. -/
def isWord (character : Char) : Bool :=
  character.isAlphanum || character == '_' || character == '-'

/-- The value of a hexadecimal digit. -/
def hexDigit? (character : Char) : Option Nat :=
  if character.isDigit then some (character.toNat - '0'.toNat)
  else if 'a' ≤ character && character ≤ 'f' then some (character.toNat - 'a'.toNat + 10)
  else if 'A' ≤ character && character ≤ 'F' then some (character.toNat - 'A'.toNat + 10)
  else none

/-- A bracket, a brace or a comma. -/
def isFlowIndicator (character : Char) : Bool :=
  character == ',' || character == '[' || character == ']' ||
    character == '\x7b' || character == '\x7d'

/-- A character that may stand in a YAML text. -/
def isPrintable (character : Char) : Bool :=
  let code := character.toNat
  code == 0x09 || code == 0x0a || code == 0x0d || code == 0x85 ||
    (0x20 ≤ code && code ≤ 0x7e) ||
    (0xa0 ≤ code && code ≤ 0xd7ff) ||
    (0xe000 ≤ code && code ≤ 0xfffd) ||
    0x10000 ≤ code

/-- Turns carriage returns, alone or before a line feed, and next-line characters
into line feeds. -/
def normalizeBreaks : List Char -> List Char
  | [] => []
  | '\r' :: '\n' :: rest => '\n' :: normalizeBreaks rest
  | '\r' :: rest => '\n' :: normalizeBreaks rest
  | '\u0085' :: rest => '\n' :: normalizeBreaks rest
  | character :: rest => character :: normalizeBreaks rest

/-- The place after a character. -/
def Mark.next (mark : Mark) (character : Char) : Mark :=
  let index := mark.index + character.utf8Size
  if isBreak character then ⟨index, mark.line + 1, 0⟩
  else ⟨index, mark.line, mark.column + 1⟩

/-- Skips a number of characters. -/
def Cursor.drop : (count : Nat) -> Cursor -> Cursor
  | 0, cursor => cursor
  | count + 1, ⟨character :: rest, mark⟩ => Cursor.drop count ⟨rest, mark.next character⟩
  | _ + 1, ⟨[], mark⟩ => ⟨[], mark⟩

/-- Takes characters while they satisfy a test. -/
def spanFrom
    (test : Char -> Bool) : (rest : List Char) -> (mark : Mark) -> List Char × Cursor
  | [], mark => ([], ⟨[], mark⟩)
  | character :: rest, mark =>
      if test character then
        let (taken, cursor) := spanFrom test rest (mark.next character)
        (character :: taken, cursor)
      else ([], ⟨character :: rest, mark⟩)

/-- Takes characters while they satisfy a test. -/
def Cursor.span (test : Char -> Bool) (cursor : Cursor) : List Char × Cursor :=
  spanFrom test cursor.rest cursor.mark

/-- Whether the cursor stands at the three given characters, at the start of a
line and followed by a blank, a line break or the end. -/
def Cursor.atMarker (cursor : Cursor) (character : Char) : Bool :=
  cursor.mark.column == 0 &&
    match cursor.rest with
    | first :: second :: third :: rest =>
        first == character && second == character && third == character &&
          startsBlank rest
    | _ => false

/-- Whether the cursor stands at the start or the end marker of a document. -/
def Cursor.atDocumentMarker (cursor : Cursor) : Bool :=
  cursor.atMarker '-' || cursor.atMarker '.'

/-- How many bytes precede the first character that may not stand in a YAML text. -/
def unprintableOffset? : (offset : Nat) -> List Char -> Option Nat
  | _, [] => none
  | offset, character :: rest =>
      if isPrintable character then unprintableOffset? (offset + character.utf8Size) rest
      else some offset

/-- The beginning of a text, once all its characters are found printable. -/
def Cursor.ofText (text : String) : Except Defect Cursor :=
  match unprintableOffset? 0 text.toList with
  | some offset => .error { fault := .unprintable offset }
  | none => .ok ⟨normalizeBreaks text.toList, {}⟩

end Yaml
end QueryGraph
