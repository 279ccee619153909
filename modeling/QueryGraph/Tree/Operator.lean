/-!
# Operators

Operators are read from symbols, words or the two open families of functions and
aggregates, in any letter case, and written in one spelling each.
-/

namespace QueryGraph

/-- An operator of an expression. -/
inductive Operator
  | eq
  | ne
  | lt
  | le
  | gt
  | ge
  | and
  | or
  | not
  | isNull
  | isNotNull
  | like
  | in
  | between
  | exists
  | add
  | sub
  | mul
  | div
  | concat
  /-- A compound value. Its members in a selection count as selected. -/
  | tuple
  | function (name : String)
  | aggregate (name : String)
  deriving DecidableEq, Repr

namespace Operator

/-- The operators without a name of their own, each with the texts that denote
it. The first text is the one that is written. -/
def spellings : List (Operator × List String) :=
  [ (.eq, ["=", "eq"]),
    (.ne, ["<>", "!=", "ne"]),
    (.lt, ["<", "lt"]),
    (.le, ["<=", "le"]),
    (.gt, [">", "gt"]),
    (.ge, [">=", "ge"]),
    (.and, ["and"]),
    (.or, ["or"]),
    (.not, ["not"]),
    (.isNull, ["is_null"]),
    (.isNotNull, ["is_not_null"]),
    (.like, ["like"]),
    (.in, ["in"]),
    (.between, ["between"]),
    (.exists, ["exists"]),
    (.add, ["+", "add"]),
    (.sub, ["-", "sub"]),
    (.mul, ["*", "mul"]),
    (.div, ["/", "div"]),
    (.concat, ["concat"]),
    (.tuple, ["tuple"]) ]

/-- The aggregates. -/
def aggregateNames : List String := ["count", "sum", "avg", "min", "max"]

/-- The marker before the name of a function. -/
def functionMarker : List Char := ['f', 'n', ':']

/-- The text of an operator. -/
def toText : Operator -> String
  | .eq => "="
  | .ne => "<>"
  | .lt => "<"
  | .le => "<="
  | .gt => ">"
  | .ge => ">="
  | .and => "and"
  | .or => "or"
  | .not => "not"
  | .isNull => "is_null"
  | .isNotNull => "is_not_null"
  | .like => "like"
  | .in => "in"
  | .between => "between"
  | .exists => "exists"
  | .add => "+"
  | .sub => "-"
  | .mul => "*"
  | .div => "/"
  | .concat => "concat"
  | .tuple => "tuple"
  | .function name => "fn:" ++ name
  | .aggregate name => "agg:" ++ name

/-- The name of a function: what follows the marker, unless that is nothing. -/
def functionName? (text : String) : Option String :=
  let characters := text.toList
  if characters.take 3 = functionMarker ∧ characters.length > 3 then
    some (String.ofList (characters.drop 3))
  else none

/-- Lowers the letters `A` to `Z` and leaves every other character. -/
def lowered (text : String) : String :=
  String.ofList (text.toList.map Char.toLower)

/-- Reads an operator from a text in lower case. -/
def ofLowered? (text : String) : Option Operator :=
  match spellings.find? fun spelling => spelling.2.contains text with
  | some spelling => some spelling.1
  | none =>
      if aggregateNames.contains text then some (.aggregate text)
      else (functionName? text).map .function

/-- Reads an operator, in any letter case. -/
def ofText? (text : String) : Option Operator :=
  ofLowered? (lowered text)

/-- What is said of a text that denotes no operator. -/
def unknownMessage (text : String) : String :=
  "unknown operator \x60" ++ text ++ "\x60"

end Operator
end QueryGraph
