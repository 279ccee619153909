import QueryGraph.Document.Encode

/-!
# Reading documents

Members that are missing take their defaults, members that are not declared are
ignored, and a member of the wrong type makes the whole record unreadable. A
record may be written as the list of its members, except for expressions and the
document itself. An expression has the first form whose members can be read. Where
a word is written as the key of a record, its value may be an empty record outside of
expressions, and has to be null inside of them.
-/

namespace QueryGraph
namespace Document

open Value

/-- Reads a direction. -/
def direction? (emptyRecords : Bool) (value : Value) : Option JoinDirection :=
  (value.word? (JoinDirection.all.map JoinDirection.name) emptyRecords).bind
    JoinDirection.ofName?

/-- Reads a mode. -/
def mode? (emptyRecords : Bool) (value : Value) : Option JoinMode :=
  (value.word? (JoinMode.all.map JoinMode.name) emptyRecords).bind JoinMode.ofName?

/-- Reads the extent of a fetched collection. -/
def collection? (emptyRecords : Bool) (value : Value) : Option CollectionFetch :=
  (value.word? ["all", "partial"] emptyRecords).bind CollectionFetch.ofName?

/-- The least and the greatest integer of a literal. Beyond them an integer is
read as a floating-point number. -/
def integerBounds : Int × Int := (-9223372036854775808, 9223372036854775807)

/-- Reads a constant. -/
def literal? : Value -> Option Literal
  | .null => some .null
  | .bool value => some (.bool value)
  | .integer value =>
      some (if integerBounds.1 ≤ value ∧ value ≤ integerBounds.2 then .integer value
        else .float (Binary64.ofInt value))
  | .float value => some (.float value)
  | .text content => some (.string content)
  | .list _ | .record _ => none

/-- Reads a fetch. -/
def fetch? (emptyRecords : Bool) : (fuel : Nat) -> Value -> Option Fetch
  | 0, _ => none
  | fuel + 1, value => do
      let members ← value.declaredMembers? fetchNames
      return {
        field := ← required? members 0 text?
        direction := ← withDefault? members 1 .inner (direction? emptyRecords)
        collection := ← withDefault? members 2 .all (collection? emptyRecords)
        fetches := ← withDefault? members 3 [] (listOf? (fetch? emptyRecords fuel)) }

/-- Reads a join, given how an expression is read. -/
def join?
    (emptyRecords : Bool)
    (expression : Value -> Option ε) :
    (fuel : Nat) -> Value -> Option (JoinOf ε)
  | 0, _ => none
  | fuel + 1, value => do
      let members ← value.declaredMembers? joinNames
      return {
        field := ← required? members 0 text?
        aliasHint := ← withDefault? members 1 none (optional? text?)
        name := ← withDefault? members 2 none (optional? text?)
        direction := ← withDefault? members 3 .inner (direction? emptyRecords)
        mode := ← withDefault? members 4 .optionallyMergeExisting (mode? emptyRecords)
        on := ← withDefault? members 5 none (optional? expression)
        joins := ← withDefault? members 6 [] (listOf? (join? emptyRecords expression fuel))
        fetches := ← withDefault? members 7 [] (listOf? (fetch? emptyRecords fuel)) }

/-- Reads a root source, given how an expression is read. -/
def root?
    (emptyRecords : Bool)
    (expression : Value -> Option ε)
    (fuel : Nat)
    (value : Value) : Option (RootOf ε) := do
  let members ← value.declaredMembers? rootNames
  return {
    recordType := ← required? members 0 text?
    aliasHint := ← withDefault? members 1 none (optional? text?)
    name := ← withDefault? members 2 none (optional? text?)
    joins := ← withDefault? members 3 [] (listOf? (join? emptyRecords expression fuel))
    fetches := ← withDefault? members 4 [] (listOf? (fetch? emptyRecords fuel)) }

/-- Reads a term of an order. -/
def order?
    (expression : Value -> Option ε)
    (value : Value) : Option (OrderOf ε) := do
  let members ← value.declaredMembers? orderNames
  return {
    expression := ← required? members 0 expression
    ascending := ← withDefault? members 1 true bool? }

/-- Reads an assignment. -/
def assignment?
    (expression : Value -> Option ε)
    (value : Value) : Option (AssignmentOf ε) := do
  let members ← value.declaredMembers? assignmentNames
  return {
    target := ← required? members 0 text?
    value := ← required? members 1 expression }

/-- Reads the members of a statement, the first of which has a given position. -/
def statementMembers?
    (emptyRecords : Bool)
    (expression : Value -> Option ε)
    (fuel : Nat)
    (members : Nat -> Option Value) : Option (StatementOf ε) := do
  return {
    distinct := ← withDefault? members 0 false bool?
    sources := ← withDefault? members 1 [] (listOf? (root? emptyRecords expression fuel))
    selection := ← withDefault? members 2 [] (listOf? expression)
    restriction := ← withDefault? members 3 none (optional? expression)
    groupBy := ← withDefault? members 4 [] (listOf? expression)
    having := ← withDefault? members 5 none (optional? expression)
    orderBy := ← withDefault? members 6 [] (listOf? (order? expression))
    assignments := ← withDefault? members 7 [] (listOf? (assignment? expression)) }

/-- Reads a statement. -/
def statement?
    (emptyRecords : Bool)
    (expression : Value -> Option ε)
    (fuel : Nat)
    (value : Value) : Option (StatementOf ε) := do
  statementMembers? emptyRecords expression fuel (← value.declaredMembers? statementNames)

/-- Reads one form of an expression: the record has to hold the first of the
given members, and is read by all of them. -/
def form?
    (value : Value)
    (names : List String)
    (read : (Nat -> Option Value) -> Option Expression) : Option Expression :=
  (value.recordMembers? names).bind read

/-- Reads an expression. Each form is tried in turn. -/
def expression? : (fuel : Nat) -> Value -> Option Expression
  | 0, _ => none
  | fuel + 1, value =>
      (value.text?.map Expression.path)
      <|> (form? value ["param"] fun members =>
        (required? members 0 text?).map .parameter)
      <|> (form? value ["anonymous"] fun members =>
        (required? members 0 text?).map .anonymous)
      <|> (form? value ["literal"] fun members =>
        (required? members 0 literal?).map .literal)
      <|> (form? value ["treat", "as_type"] fun members => do
        return .treat (← required? members 0 (expression? fuel)) (← required? members 1 text?))
      <|> (form? value ["subquery"] fun members =>
        (required? members 0 (statement? false (expression? fuel) fuel)).map .subquery)
      <|> (form? value ["tuple"] fun members =>
        (required? members 0 (listOf? (expression? fuel))).map .tuple)
      <|> (form? value ["op", "args"] fun members => do
        return .apply (← required? members 0 text?)
          (← withDefault? members 1 [] (listOf? (expression? fuel))))

/-- Reads the kind of a statement. -/
def kind? (value : Value) : Option StatementKind :=
  value.text?.bind StatementKind.ofName?

end Document

/-- Reads a document. The nesting of the value bounds the recursion. -/
def QueryDocument.decode? (value : Value) : Option QueryDocument := do
  let members ← value.recordMembers? Document.documentNames
  let fuel := value.depth + 1
  return {
    kind := ← Value.withDefault? members 0 .query Document.kind?
    statement := ← Document.statementMembers? true (Document.expression? fuel) fuel
      fun index => members (index + 1) }

end QueryGraph
