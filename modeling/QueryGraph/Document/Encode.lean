import QueryGraph.Document.Basic
import QueryGraph.Value

/-!
# Documents as values

Every record of a document is written with all of its members, in the declared
order, under the names listed here. An expression is a text or a record whose
members show which form it has.
-/

namespace QueryGraph
namespace Document

/-- The members of a fetch. -/
def fetchNames : List String := ["field", "direction", "collection", "fetches"]

/-- The members of a join. -/
def joinNames : List String :=
  ["field", "alias", "name", "direction", "mode", "on", "joins", "fetches"]

/-- The members of a root source. -/
def rootNames : List String := ["record_type", "alias", "name", "joins", "fetches"]

/-- The members of a term of an order. -/
def orderNames : List String := ["expr", "ascending"]

/-- The members of an assignment. -/
def assignmentNames : List String := ["target", "value"]

/-- The members of a statement. -/
def statementNames : List String :=
  ["distinct", "from", "select", "where", "group_by", "having", "order_by", "set"]

/-- The members of a document: its kind, then those of its statement. -/
def documentNames : List String := "kind" :: statementNames

/-- A record with the given members in order. -/
def recordOf (names : List String) (values : List Value) : Value :=
  .record ((names.map Key.name).zip values)

/-- An optional text. -/
def optionalText : Option String -> Value
  | none => .null
  | some text => .text text

/-- A constant. -/
def literalValue : Literal -> Value
  | .null => .null
  | .bool value => .bool value
  | .integer value => .integer value
  | .float value => .float value
  | .string text => .text text

/-- A fetch. -/
def encodeFetch : Fetch -> Value
  | ⟨field, direction, collection, fetches⟩ =>
      recordOf fetchNames
        [ .text field,
          .text direction.name,
          .text collection.name,
          .list (encodeFetches fetches) ]
where
  /-- A list of fetches. -/
  encodeFetches : List Fetch -> List Value
    | [] => []
    | fetch :: fetches => encodeFetch fetch :: encodeFetches fetches

mutual

/-- An expression. -/
def encodeExpression : Expression -> Value
  | .path text => .text text
  | .parameter name => recordOf ["param"] [.text name]
  | .anonymous label => recordOf ["anonymous"] [.text label]
  | .literal value => recordOf ["literal"] [literalValue value]
  | .treat target asType =>
      recordOf ["treat", "as_type"] [encodeExpression target, .text asType]
  | .subquery statement => recordOf ["subquery"] [encodeStatement statement]
  | .tuple items => recordOf ["tuple"] [.list (encodeExpressions items)]
  | .apply operator operands =>
      recordOf ["op", "args"] [.text operator, .list (encodeExpressions operands)]

/-- A list of expressions. -/
def encodeExpressions : List Expression -> List Value
  | [] => []
  | expression :: expressions =>
      encodeExpression expression :: encodeExpressions expressions

/-- An optional expression. -/
def encodeOptional : Option Expression -> Value
  | none => .null
  | some expression => encodeExpression expression

/-- A list of joins. -/
def encodeJoins : List (JoinOf Expression) -> List Value
  | [] => []
  | ⟨field, aliasHint, name, direction, mode, on, joins, fetches⟩ :: rest =>
      recordOf joinNames
        [ .text field,
          optionalText aliasHint,
          optionalText name,
          .text direction.name,
          .text mode.name,
          encodeOptional on,
          .list (encodeJoins joins),
          .list (fetches.map encodeFetch) ] :: encodeJoins rest

/-- A list of root sources. -/
def encodeRoots : List (RootOf Expression) -> List Value
  | [] => []
  | ⟨recordType, aliasHint, name, joins, fetches⟩ :: rest =>
      recordOf rootNames
        [ .text recordType,
          optionalText aliasHint,
          optionalText name,
          .list (encodeJoins joins),
          .list (fetches.map encodeFetch) ] :: encodeRoots rest

/-- The terms of an order. -/
def encodeOrders : List (OrderOf Expression) -> List Value
  | [] => []
  | ⟨expression, ascending⟩ :: rest =>
      recordOf orderNames [encodeExpression expression, .bool ascending] ::
        encodeOrders rest

/-- A list of assignments. -/
def encodeAssignments : List (AssignmentOf Expression) -> List Value
  | [] => []
  | ⟨target, value⟩ :: rest =>
      recordOf assignmentNames [.text target, encodeExpression value] ::
        encodeAssignments rest

/-- The members of a statement in order. -/
def encodeMembers : StatementOf Expression -> List Value
  | ⟨distinct, sources, selection, restriction, groupBy, having, orderBy, assignments⟩ =>
      [ .bool distinct,
        .list (encodeRoots sources),
        .list (encodeExpressions selection),
        encodeOptional restriction,
        .list (encodeExpressions groupBy),
        encodeOptional having,
        .list (encodeOrders orderBy),
        .list (encodeAssignments assignments) ]

/-- A statement. -/
def encodeStatement : StatementOf Expression -> Value
  | statement => recordOf statementNames (encodeMembers statement)

end

end Document

/-- A document. -/
def QueryDocument.encode (document : QueryDocument) : Value :=
  Document.recordOf Document.documentNames
    (.text document.kind.name :: Document.encodeMembers document.statement)

end QueryGraph
