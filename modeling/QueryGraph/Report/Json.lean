/-!
# JSON text

Values in JSON notation, spread over lines that are indented by two spaces for each
level. A list or record without members stays on one line.
-/

namespace QueryGraph

/-- A JSON value. -/
inductive Json
  | null
  | bool (value : Bool)
  | number (value : Nat)
  | text (content : String)
  | list (items : List Json)
  | record (members : List (String × Json))
  deriving Repr

namespace Json

/-- A digit of a number in base sixteen. -/
def hexDigit (value : Nat) : Char :=
  if value < 10 then Char.ofNat (48 + value) else Char.ofNat (87 + value)

/-- A character inside quotes. Quotes, backslashes and characters below the blank are
escaped, by a letter where there is one. -/
def escaped (character : Char) : List Char :=
  if character = '"' then ['\\', '"']
  else if character = '\\' then ['\\', '\\']
  else if character = '\x08' then ['\\', 'b']
  else if character = '\x0c' then ['\\', 'f']
  else if character = '\n' then ['\\', 'n']
  else if character = '\r' then ['\\', 'r']
  else if character = '\t' then ['\\', 't']
  else if character.toNat < 32 then
    ['\\', 'u', '0', '0', hexDigit (character.toNat / 16), hexDigit (character.toNat % 16)]
  else [character]

/-- A text between quotes. -/
def quoted (text : String) : String :=
  String.ofList (['"'] ++ text.toList.flatMap escaped ++ ['"'])

/-- The beginning of a line at some level. -/
def lineAt (level : Nat) : String :=
  "\n" ++ String.ofList (List.replicate (2 * level) ' ')

/-- Entries between two brackets, each on a line of its own. -/
def bracketed (level : Nat) (left right : String) : List String -> String
  | [] => left ++ right
  | entries =>
      left ++ ",".intercalate (entries.map fun entry => lineAt (level + 1) ++ entry) ++
        lineAt level ++ right

/-- The text of an optional text. -/
def optionalText : Option String -> Json
  | none => .null
  | some content => .text content

mutual

/-- The text of a value that begins at some level. -/
def render (level : Nat) : Json -> String
  | .null => "null"
  | .bool value => if value then "true" else "false"
  | .number value => toString value
  | .text content => quoted content
  | .list items => bracketed level "[" "]" (renderItems level items)
  | .record members => bracketed level "\x7b" "\x7d" (renderMembers level members)

/-- The texts of the items of a list. -/
def renderItems (level : Nat) : List Json -> List String
  | [] => []
  | item :: items => render (level + 1) item :: renderItems level items

/-- The texts of the members of a record. -/
def renderMembers (level : Nat) : List (String × Json) -> List String
  | [] => []
  | (name, value) :: members =>
      (quoted name ++ ": " ++ render (level + 1) value) :: renderMembers level members

end

/-- The text of a value. -/
def pretty (value : Json) : String := value.render 0

end Json
end QueryGraph
