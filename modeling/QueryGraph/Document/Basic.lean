import QueryGraph.Tree.Node

/-!
# Query documents

A document describes a statement by names instead of node numbers. Expressions
and statements contain one another, so the records of a statement are first
described over an arbitrary type of expressions.
-/

namespace QueryGraph
namespace Document

/-- A fetch with the fetches below it. -/
structure Fetch where
  field : String
  direction : JoinDirection := .inner
  collection : CollectionFetch := .all
  fetches : List Fetch := []
  deriving Repr

/-- A join with the joins and fetches below it. -/
structure JoinOf (ε : Type) where
  field : String
  /-- The alias suggested for the join, which is also its name when there is no
  other. -/
  aliasHint : Option String := none
  /-- The name under which the document refers to the join. -/
  name : Option String := none
  direction : JoinDirection := .inner
  mode : JoinMode := .optionallyMergeExisting
  on : Option ε := none
  joins : List (JoinOf ε) := []
  fetches : List Fetch := []
  deriving Repr

/-- A root source with its joins and fetches. -/
structure RootOf (ε : Type) where
  recordType : String
  aliasHint : Option String := none
  name : Option String := none
  joins : List (JoinOf ε) := []
  fetches : List Fetch := []
  deriving Repr

/-- A term of an order. -/
structure OrderOf (ε : Type) where
  expression : ε
  ascending : Bool := true
  deriving Repr

/-- An assignment to a path. -/
structure AssignmentOf (ε : Type) where
  target : String
  value : ε
  deriving Repr

/-- The sources and clauses of a statement. -/
structure StatementOf (ε : Type) where
  distinct : Bool := false
  sources : List (RootOf ε) := []
  selection : List ε := []
  restriction : Option ε := none
  groupBy : List ε := []
  having : Option ε := none
  orderBy : List (OrderOf ε) := []
  assignments : List (AssignmentOf ε) := []
  deriving Repr

/-- An expression. -/
inductive Expression
  /-- A dotted path that begins with the name of a source. -/
  | path (text : String)
  /-- A named placeholder. Equal names denote one placeholder. -/
  | parameter (name : String)
  /-- A positional placeholder. Equal labels denote one placeholder. -/
  | anonymous (label : String)
  | literal (value : Literal)
  | treat
      (target : Expression)
      (asType : String)
  | subquery (statement : StatementOf Expression)
  | tuple (items : List Expression)
  | apply
      (operator : String)
      (operands : List Expression)
  deriving Repr

/-- A join. -/
abbrev Join := JoinOf Expression

/-- A root source. -/
abbrev Root := RootOf Expression

/-- A term of an order. -/
abbrev Order := OrderOf Expression

/-- An assignment. -/
abbrev Assignment := AssignmentOf Expression

/-- A statement. -/
abbrev Statement := StatementOf Expression

end Document

/-- A query document. -/
structure QueryDocument where
  kind : StatementKind := .query
  statement : Document.Statement := {}
  deriving Repr

end QueryGraph
