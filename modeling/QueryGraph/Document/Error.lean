import QueryGraph.Tree.Error

/-!
# Unusable documents

Why a document does not become a tree.
-/

namespace QueryGraph

/-- Why a document does not become a tree. -/
inductive DocumentError
  /-- The file of the document cannot be read. -/
  | missing
  /-- The text is not a document. -/
  | unreadable
  | duplicateAlias (name : String)
  | unknownAlias (name : String)
  | invalidPath (path : String)
  | invalidOperator (operator : String)
  | tree (error : TreeError)
  deriving DecidableEq, Repr

/-- The wording of a document error. -/
def DocumentError.message : DocumentError -> String
  | .missing => "Failed to read query document"
  | .unreadable => "Failed to parse query document"
  | .duplicateAlias name => "Alias \x60" ++ name ++ "\x60 is declared more than once"
  | .unknownAlias name =>
      "Alias \x60" ++ name ++ "\x60 is not declared by this statement or an enclosing one"
  | .invalidPath path => "Path expression \x60" ++ path ++ "\x60 is empty or malformed"
  | .invalidOperator operator =>
      "Invalid operator \x60" ++ operator ++ "\x60: " ++ Operator.unknownMessage operator
  | .tree error => error.message

end QueryGraph
