import QueryGraph.Environment.Basic
import QueryGraph.Environment.Line
import QueryGraph.Unicode.Alphanumeric

/-!
# Variable files

A line of the file sets one variable, unless it is set already. Values may be quoted,
and outside single quotes they may refer to variables by a dollar sign and a name.
The first line that cannot be read ends the file.
-/

namespace QueryGraph
namespace VariableFile

/-- Whether a character may begin the name of a variable. -/
def beginsName (character : Char) : Bool :=
  character.isAlpha || character == '_'

/-- Whether a character may stand inside the name of a variable. -/
def continuesName (character : Char) : Bool :=
  character.isAlphanum || character == '_' || character == '.'

/-- A name and the text after it. -/
def name? (text : List Char) : Option (String × List Char) :=
  if text.head?.any beginsName then
    some (String.ofList (text.takeWhile continuesName), text.dropWhile continuesName)
  else none

/-- The text after an equals sign. -/
def afterEquals? : List Char -> Option (List Char)
  | '=' :: rest => some rest
  | _ => none

/-- The name that a line sets and the text of its value. The word `export` may come
before the name, and is itself a name before an equals sign. -/
def assignment? (line : List Char) : Option (String × List Char) := do
  let (name, rest) ← name? line
  let rest := skipBlanks rest
  match afterEquals? rest with
  | some value => return (name, skipBlanks value)
  | none =>
      if name = "export" then
        let (exported, rest) ← name? rest
        let value ← afterEquals? (skipBlanks rest)
        return (exported, skipBlanks value)
      else none

/-- What the next character of a value belongs to. -/
inductive ValueMode
  | plain
  /-- The value has ended; only blanks and a comment may follow. -/
  | ended
  | escaped
  | strong
  /-- The name of a variable after a dollar sign. -/
  | reference
  /-- The name of a variable between braces. -/
  | braced
  deriving DecidableEq, Repr

/-- A value that has been read up to some character. -/
structure ValueReader where
  mode : ValueMode := .plain
  /-- Whether a double quote is open. -/
  weak : Bool := false
  /-- The characters of a reference, last first. -/
  reference : List Char := []
  /-- The characters of the value, last first. -/
  output : List Char := []
  deriving Repr

namespace ValueReader

/-- The same reader after one more character of the value. -/
def emit (reader : ValueReader) (character : Char) : ValueReader :=
  { reader with output := character :: reader.output }

/-- Replaces a finished reference by the value of its variable. -/
def resolve
    (reader : ValueReader)
    (lookup : String -> String) : ValueReader :=
  let value := lookup (String.ofList reader.reference.reverse)
  { reader with
    mode := .plain
    reference := []
    output := value.toList.reverse ++ reader.output }

/-- Reads a character after a backslash. -/
def escape (reader : ValueReader) (character : Char) : Option ValueReader :=
  let reader := { reader with mode := .plain }
  if character = '\\' || character = '\'' || character = '"' || character = '$' ||
      character = ' ' then
    some (reader.emit character)
  else if character = 'n' then some (reader.emit '\n')
  else none

/-- Reads a character outside quotes of either kind. -/
def unquoted (reader : ValueReader) (character : Char) : ValueReader :=
  if character = '\'' then { reader with mode := .strong }
  else if character = '"' then { reader with weak := true }
  else if character = '\\' then { reader with mode := .escaped }
  else if character = ' ' || character = '\t' then { reader with mode := .ended }
  else reader.emit character

/-- Reads a character between double quotes. -/
def quoted (reader : ValueReader) (character : Char) : ValueReader :=
  if character = '"' then { reader with weak := false }
  else if character = '\\' then { reader with mode := .escaped }
  else reader.emit character

/-- Reads a character. A reference without braces consists of letters and numbers. -/
def step
    (lookup : String -> String)
    (reader : ValueReader)
    (character : Char) : Option ValueReader :=
  match reader.mode with
  | .ended => if character = ' ' || character = '\t' then some reader else none
  | .escaped => reader.escape character
  | .strong =>
      if character = '\'' then some { reader with mode := .plain }
      else some (reader.emit character)
  | .reference =>
      if Unicode.isAlphanumeric character then
        some { reader with reference := character :: reader.reference }
      else if character = '\x7b' && reader.reference.isEmpty then
        some { reader with mode := .braced }
      else if character = '$' then
        some { reader.resolve lookup with mode := .reference }
      else some ((reader.resolve lookup).emit character)
  | .braced =>
      if character = '\x7d' then some (reader.resolve lookup)
      else some { reader with reference := character :: reader.reference }
  | .plain =>
      if character = '$' then some { reader with mode := .reference }
      else if reader.weak then some (reader.quoted character)
      else some (reader.unquoted character)

/-- Reads characters up to a comment after the end of the value. -/
def steps
    (lookup : String -> String) :
    ValueReader -> List Char -> Option ValueReader
  | reader, [] => some reader
  | reader, character :: rest =>
      if reader.mode = .ended && character = '#' then some reader
      else (reader.step lookup character).bind fun next => steps lookup next rest

/-- The value that was read, unless a quote or a brace is still open. -/
def value?
    (reader : ValueReader)
    (lookup : String -> String) : Option String :=
  if reader.mode = .braced || reader.mode = .strong || reader.weak then none
  else some (String.ofList (reader.resolve lookup).output.reverse)

end ValueReader

/-- The value that a text denotes. -/
def value? (lookup : String -> String) (text : List Char) : Option String :=
  if text.head?.all (· == '#') then some ""
  else (ValueReader.steps lookup {} text).bind fun reader => reader.value? lookup

end VariableFile

namespace Environment

open VariableFile

/-- What a line sets, if it sets anything; nothing for a line that cannot be read. Blanks
at its beginning and its end do not count. -/
def assignment?
    (environment : Environment)
    (line : List Char) : Option (Option (String × String)) :=
  let line := skipBlanks (withoutFinalBlanks line)
  if line.head?.all (· == '#') then some none
  else do
    let (name, text) ← VariableFile.assignment? line
    let value ← value? (fun name => (environment.text? name).getD "") text
    return some (name, value)

/-- Sets a variable unless it is set already. No variable can hold a NUL. -/
def setMissing?
    (environment : Environment)
    (name text : String) : Option Environment :=
  if (environment.text? name).isSome then some environment
  else if text.toList.contains '\x00' then none
  else some (environment.setText name text)

/-- Sets the variables of several lines, up to the first that cannot be read; nothing
if a line is read that sets a variable to what it cannot hold. -/
def loadLines : Environment -> List (List Char) -> Option Environment
  | environment, [] => some environment
  | environment, line :: lines =>
      match environment.assignment? line with
      | none => some environment
      | some none => environment.loadLines lines
      | some (some (name, text)) =>
          (environment.setMissing? name text).bind fun environment => environment.loadLines lines

/-- Sets the variables of a file, if they can hold their values. -/
def load? (environment : Environment) (text : String) : Option Environment :=
  environment.loadLines (VariableFile.lines text)

end Environment
end QueryGraph
