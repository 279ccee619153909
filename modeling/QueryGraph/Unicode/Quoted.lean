import QueryGraph.Unicode.Extending
import QueryGraph.Unicode.Unprintable

/-!
# Quoted texts

A quoted text stands between double quotes and shows every character that could not be
told from its looks by an escape.
-/

namespace QueryGraph
namespace Unicode

/-- A character inside a quoted text. Double quotes and backslashes are escaped, and so
are characters that cannot be printed or that extend the one before them. -/
def quotedCharacter (character : Char) : List Char :=
  if character == '\x00' then ['\\', '0']
  else if character == '\t' then ['\\', 't']
  else if character == '\n' then ['\\', 'n']
  else if character == '\r' then ['\\', 'r']
  else if character == '"' || character == '\\' then ['\\', character]
  else if isExtending character || isUnprintable character then
    ['\\', 'u', '\x7b'] ++ (Nat.toDigits 16 character.toNat) ++ ['\x7d']
  else [character]

/-- The quoted form of a text. -/
def quoted (text : String) : String :=
  String.ofList (['"'] ++ text.toList.flatMap quotedCharacter ++ ['"'])

end Unicode
end QueryGraph
