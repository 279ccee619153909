import QueryGraph.Binary64.Shortest

/-!
# Literals

The constant values of a query and their text.
-/

namespace QueryGraph

/-- A constant value. -/
inductive Literal
  | null
  | bool (value : Bool)
  | integer (value : Int)
  | float (value : Binary64)
  | string (text : String)
  deriving DecidableEq, Repr

namespace Literal

/-- The characters of a text with every quote doubled. -/
def doubleQuotes : List Char -> List Char
  | [] => []
  | character :: rest =>
      if character = '\'' then '\'' :: '\'' :: doubleQuotes rest
      else character :: doubleQuotes rest

/-- A text between quotes. -/
def quoted (text : String) : String :=
  String.ofList ('\'' :: (doubleQuotes text.toList ++ ['\'']))

/-- The text of a literal. -/
def toText : Literal -> String
  | .null => "null"
  | .bool value => if value then "true" else "false"
  | .integer value => toString value
  | .float value => value.toText
  | .string text => quoted text

/-- The name of the type of a literal. -/
def typeName : Literal -> String
  | .null => "Null"
  | .bool _ => "Bool"
  | .integer _ => "Integer"
  | .float _ => "Float"
  | .string _ => "String"

end Literal
end QueryGraph
