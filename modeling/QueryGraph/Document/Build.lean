import QueryGraph.Document.Basic
import QueryGraph.Document.Scope

/-!
# From documents to trees

The sources of a statement are declared before any of its expressions, and a join
condition may name every source of its statement. The clauses follow in a fixed
order: conditions, duplicates, selection, restriction, groups, their restriction,
order, assignments.
-/

namespace QueryGraph
namespace Document
namespace Drafting

/-- The segments of a dotted path. -/
def segments (text : String) : List String := text.splitOn "."

/-- Accesses a chain of fields, none of which may be empty. -/
def fields (text : String) : (parent : NodeId) -> List String -> Drafting NodeId
  | parent, [] => return parent
  | parent, field :: rest => do
      if field.isEmpty then throw (.invalidPath text)
      fields text (← onTree (Build.access parent field)) rest

/-- A dotted path, which begins with the name of a source. -/
def path (text : String) : Drafting NodeId := do
  match segments text with
  | [] => throw (.invalidPath text)
  | head :: rest =>
      if head.isEmpty then throw (.invalidPath text)
      fields text (← lookup head) rest

mutual

/-- Declares a fetch and the fetches below it. -/
def fetch (parent : NodeId) : Fetch -> Drafting Unit
  | ⟨field, direction, collection, nested⟩ => do
      let declared ← onTree (Build.fetch parent field direction collection)
      fetches declared nested

/-- Declares a list of fetches. -/
def fetches (parent : NodeId) : List Fetch -> Drafting Unit
  | [] => return ()
  | first :: rest => do
      fetch parent first
      fetches parent rest

end

/-- Suggests the alias of a source, if it has one, and declares the source under its
name, or else under its alias. -/
def introduce
    (source : NodeId)
    (aliasHint name : Option String) : Drafting Unit := do
  match aliasHint with
  | none => pure ()
  | some text => onTree (Build.setAlias source text)
  declare (name.or aliasHint) source

/-- Declares joins below a source and returns the numbers of all of them, each
before those below it. -/
def joins (parent : NodeId) : List (JoinOf ε) -> Drafting (List NodeId)
  | [] => return []
  | ⟨field, aliasHint, name, direction, mode, _, nested, fetched⟩ :: rest => do
      let join ← onTree (Build.join parent field direction mode)
      introduce join aliasHint name
      let below ← joins join nested
      fetches join fetched
      return join :: below ++ (← joins parent rest)

/-- Declares the sources of a statement and returns the numbers of all joins. -/
def sources (statement : NodeId) : List (RootOf ε) -> Drafting (List NodeId)
  | [] => return []
  | root :: rest => do
      let source ← onTree (Build.root statement root.recordType)
      introduce source root.aliasHint root.name
      let below ← joins source root.joins
      fetches source root.fetches
      return below ++ (← sources statement rest)

/-- An operator by its text. -/
def operator (text : String) : Drafting Operator :=
  match Operator.ofText? text with
  | some operator => return operator
  | none => throw (.invalidOperator text)

mutual

/-- An expression. -/
def expression : Expression -> Drafting NodeId
  | .path text => path text
  | .parameter name => parameter name
  | .anonymous label => anonymous label
  | .literal value => onTree (Build.literal value)
  | .treat target asType => do
      onTree (Build.treat (← expression target) asType)
  | .subquery body => do
      let parent := ((← get).scopes.head?.map Scope.statement).getD Tree.top
      let subquery ← onTree (Build.subquery parent)
      enter subquery
      statement subquery body
      leave
      return subquery
  | .tuple items => do
      onTree (Build.expression .tuple (← expressions items))
  | .apply name operands => do
      let operator ← operator name
      onTree (Build.expression operator (← expressions operands))

/-- A list of expressions. -/
def expressions : List Expression -> Drafting (List NodeId)
  | [] => return []
  | first :: rest => do
      let first ← expression first
      return first :: (← expressions rest)

/-- Adds the expressions of a clause one after another. -/
def clause (add : NodeId -> Build Unit) : List Expression -> Drafting Unit
  | [] => return ()
  | first :: rest => do
      onTree (add (← expression first))
      clause add rest

/-- Adds the expression of a clause that may be absent. -/
def optionalClause (add : NodeId -> Build Unit) : Option Expression -> Drafting Unit
  | none => return ()
  | some item => do onTree (add (← expression item))

/-- Adds the terms of an order. -/
def order (id : NodeId) : List (OrderOf Expression) -> Drafting Unit
  | [] => return ()
  | ⟨item, ascending⟩ :: rest => do
      let _ ← onTree (Build.orderBy id (← expression item) ascending)
      order id rest

/-- Adds assignments. -/
def assignments (id : NodeId) : List (AssignmentOf Expression) -> Drafting Unit
  | [] => return ()
  | ⟨target, value⟩ :: rest => do
      let target ← path target
      let _ ← onTree (Build.assign id target (← expression value))
      assignments id rest

/-- Gives joins their conditions. The numbers of the joins come in the order of
declaration, and those that are left over are returned. -/
def joinConditions : List (JoinOf Expression) -> List NodeId -> Drafting (List NodeId)
  | [], declared => return declared
  | _ :: _, [] => return []
  | ⟨_, _, _, _, _, on, nested, _⟩ :: rest, join :: declared => do
      optionalClause (Build.setOn join) on
      joinConditions rest (← joinConditions nested declared)

/-- Gives the joins of all sources their conditions. -/
def conditions : List (RootOf Expression) -> List NodeId -> Drafting Unit
  | [], _ => return ()
  | ⟨_, _, _, nested, _⟩ :: rest, declared => do
      conditions rest (← joinConditions nested declared)

/-- Fills a statement. -/
def statement (id : NodeId) : StatementOf Expression -> Drafting Unit
  | ⟨distinct, roots, selection, restriction, groups, having, terms, changes⟩ => do
      conditions roots (← sources id roots)
      if distinct then onTree (Build.distinct id true)
      clause (Build.select id) selection
      optionalClause (Build.restrict id) restriction
      clause (Build.groupBy id) groups
      optionalClause (Build.having id) having
      order id terms
      assignments id changes

end

end Drafting
end Document

namespace QueryDocument

/-- The kind of the top statement. A document that calls itself a subquery is a
query, because nothing encloses it. -/
def topKind (document : QueryDocument) : StatementKind :=
  match document.kind with
  | .subquery => .query
  | kind => kind

/-- Builds the tree of a document. -/
def build (document : QueryDocument) : Except DocumentError Tree :=
  let action : Document.Drafting Unit := do
    Document.Drafting.enter Tree.top
    Document.Drafting.statement Tree.top document.statement
    Document.Drafting.leave
  match action { tree := Tree.ofKind document.topKind } with
  | .ok () draft => .ok draft.tree
  | .error error _ => .error error

end QueryDocument
end QueryGraph
