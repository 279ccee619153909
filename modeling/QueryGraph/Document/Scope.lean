import QueryGraph.Document.Error
import QueryGraph.Tree.Builder

/-!
# Names in a document

Each open statement has a scope with the names of its sources. A name means the
source of the innermost scope that knows it. A source of an enclosing statement is
first made visible inside the current one, under the same name.
-/

namespace QueryGraph
namespace Document

/-- The names that an open statement knows. -/
structure Scope where
  statement : NodeId
  names : List (String × NodeId) := []
  deriving DecidableEq, Repr

/-- The source that a scope knows by a name. -/
def Scope.find? (scope : Scope) (name : String) : Option NodeId :=
  scope.names.lookup name

/-- The same scope with one more name. -/
def Scope.insert
    (scope : Scope)
    (name : String)
    (source : NodeId) : Scope :=
  { scope with names := (name, source) :: scope.names }

/-- A tree that is being built from a document. -/
structure Draft where
  tree : Tree
  /-- The scopes of the open statements, innermost first. -/
  scopes : List Scope := []
  /-- The placeholder of each name. -/
  parameters : List (String × NodeId) := []
  /-- The positional placeholder of each label. -/
  labels : List (String × NodeId) := []
  deriving DecidableEq, Repr

/-- An operation on a draft that may be refused. -/
abbrev Drafting := EStateM DocumentError Draft

namespace Drafting

/-- Performs an operation on the tree. -/
def onTree (action : Build α) : Drafting α := fun draft =>
  match action draft.tree with
  | .ok value tree => .ok value { draft with tree := tree }
  | .error error tree => .error (.tree error) { draft with tree := tree }

/-- Opens the scope of a statement. -/
def enter (statement : NodeId) : Drafting Unit :=
  modify fun draft => { draft with scopes := { statement := statement } :: draft.scopes }

/-- Closes the innermost scope. -/
def leave : Drafting Unit :=
  modify fun draft => { draft with scopes := draft.scopes.tail }

/-- Lets the innermost scope know a name. -/
def bind (name : String) (source : NodeId) : Drafting Unit :=
  modify fun draft =>
    match draft.scopes with
    | [] => draft
    | scope :: outer => { draft with scopes := scope.insert name source :: outer }

/-- Declares a source under its name, if it has one. A statement declares a name
only once. -/
def declare (name : Option String) (source : NodeId) : Drafting Unit := do
  match name with
  | none => return ()
  | some name =>
      if (← get).scopes.head?.any fun scope => (scope.find? name).isSome then
        throw (.duplicateAlias name)
      else bind name source

/-- The source that a name means. -/
def lookup (name : String) : Drafting NodeId := do
  match (← get).scopes with
  | [] => throw (.unknownAlias name)
  | scope :: outer =>
      match scope.find? name with
      | some source => return source
      | none =>
          match outer.findSome? fun scope => scope.find? name with
          | none => throw (.unknownAlias name)
          | some source =>
              let correlated ← onTree (Build.correlate scope.statement source)
              bind name correlated
              return correlated

/-- The named placeholder of a name, which is made when the name is new. -/
def parameter (name : String) : Drafting NodeId := do
  match (← get).parameters.lookup name with
  | some existing => return existing
  | none =>
      let parameter ← onTree (Build.namedParameter name)
      modify fun draft => { draft with parameters := (name, parameter) :: draft.parameters }
      return parameter

/-- The positional placeholder of a label, which is made when the label is new. -/
def anonymous (label : String) : Drafting NodeId := do
  match (← get).labels.lookup label with
  | some existing => return existing
  | none =>
      let parameter ← onTree Build.anonymousParameter
      modify fun draft => { draft with labels := (label, parameter) :: draft.labels }
      return parameter

end Drafting
end Document
end QueryGraph
