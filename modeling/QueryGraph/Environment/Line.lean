/-!
# Lines of a variable file

A line of the file ends at a line break outside quotes. Outside quotes, a number sign
after a blank begins a comment, and a line that begins with one is a comment as a
whole. A quote that is never closed ends the file.
-/

namespace QueryGraph
namespace VariableFile

/-- Whether a character is blank in the sense of Unicode. -/
def isBlank (character : Char) : Bool :=
  let code := character.toNat
  (9 ≤ code && code ≤ 13) || code == 0x20 || code == 0x85 || code == 0xA0 ||
    code == 0x1680 || (0x2000 ≤ code && code ≤ 0x200A) || code == 0x2028 ||
    code == 0x2029 || code == 0x202F || code == 0x205F || code == 0x3000

/-- A text without the blanks at its beginning. -/
def skipBlanks (text : List Char) : List Char := text.dropWhile isBlank

/-- A text without the blanks at its end. -/
def withoutFinalBlanks (text : List Char) : List Char :=
  (skipBlanks text.reverse).reverse

/-- The lines of a text, each with its line break. -/
def physicalLines : List Char -> List (List Char)
  | [] => []
  | character :: rest =>
      if character = '\n' then [character] :: physicalLines rest
      else
        match physicalLines rest with
        | [] => [[character]]
        | line :: lines => (character :: line) :: lines

/-- Where in a line the next character stands. -/
inductive Place
  | outside
  | afterBlank
  | escaped
  | weak
  | weakEscaped
  | strong
  | strongEscaped
  deriving DecidableEq, Repr

namespace Place

/-- The place after a character that has no meaning of its own. -/
def ofMark (character : Char) (otherwise : Place) : Place :=
  if character = '\\' then .escaped
  else if character = '"' then .weak
  else if character = '\'' then .strong
  else otherwise

/-- The place after a character; nothing where a comment begins. -/
def after (place : Place) (character : Char) : Option Place :=
  match place with
  | .afterBlank =>
      if character = '#' then none else some (ofMark character .outside)
  | .escaped => some .outside
  | .outside =>
      if isBlank character && character != '\n' && character != '\r' then some .afterBlank
      else some (ofMark character .outside)
  | .weak =>
      if character = '\\' then some .weakEscaped
      else if character = '"' then some .outside
      else some .weak
  | .weakEscaped => some .weak
  | .strong =>
      if character = '\\' then some .strongEscaped
      else if character = '\'' then some .outside
      else some .strong
  | .strongEscaped => some .strong

end Place

/-- The part of a line before a comment, and the place at its end. There is no place
where a comment was cut off. -/
def cutComment : Place -> List Char -> List Char × Option Place
  | place, [] => ([], some place)
  | place, character :: rest =>
      match place.after character with
      | none => ([], none)
      | some next =>
          let (kept, final) := cutComment next rest
          (character :: kept, final)

/-- A line without its line break. -/
def withoutBreak (line : List Char) : List Char :=
  match line.reverse with
  | '\n' :: '\r' :: rest => rest.reverse
  | '\n' :: rest => rest.reverse
  | _ => line

/-- The lines of a file, in which quotes may span several lines of the text. -/
def joinLines :
    (begun : List Char) -> (place : Place) -> List (List Char) -> List (List Char)
  | _, _, [] => []
  | begun, place, line :: lines =>
      if (skipBlanks (begun ++ line)).head? = some '#' then
        [] :: joinLines [] .outside lines
      else
        match cutComment place line with
        | (kept, none) => (begun ++ kept) :: joinLines [] .outside lines
        | (_, some .outside) => withoutBreak (begun ++ line) :: joinLines [] .outside lines
        | (_, some next) => joinLines (begun ++ line) next lines

/-- The lines of the text of a file. A byte order mark at its beginning is ignored. -/
def lines (text : String) : List (List Char) :=
  let characters :=
    match text.toList with
    | '\ufeff' :: rest => rest
    | characters => characters
  joinLines [] .outside (physicalLines characters)

end VariableFile
end QueryGraph
