import QueryGraph.Path.Identity
import QueryGraph.Schema.Error
import QueryGraph.Tree.Error

/-!
# Compilation errors

Everything that can stop a compilation or a look-up in its result.
-/

namespace QueryGraph

/-- The number of a vertex in its join graph. -/
structure VertexId where
  index : Nat
  deriving DecidableEq, Repr, Inhabited

/-- Why a path cannot be navigated. -/
inductive NavigationFault
  | notARelation
  | onlyRelationsFetched
  | parentNotJoined
  | scalarNavigated
  deriving DecidableEq, Repr

/-- The wording of a navigation fault. -/
def NavigationFault.message : NavigationFault -> String
  | .notARelation => "field is not a relation"
  | .onlyRelationsFetched => "only relations can be fetched"
  | .parentNotJoined => "the parent path does not resolve to a joined entity"
  | .scalarNavigated => "a scalar field cannot be navigated"

/-- Why an entry may not stand on top of a path stack. -/
inductive PushFault
  | statementNotAtBottom
  | subqueryAtBottom
  | subqueryOutsideClause
  | clauseAtBottom
  | clauseWithoutStatement
  | expressionAtBottom
  | expressionOutsideClause
  deriving DecidableEq, Repr

/-- The wording of a push fault. -/
def PushFault.message : PushFault -> String
  | .statementNotAtBottom => "a top-level statement must be the bottom of the stack"
  | .subqueryAtBottom => "a subquery cannot be the bottom of the stack"
  | .subqueryOutsideClause => "a subquery must be nested in a clause"
  | .clauseAtBottom => "a clause cannot be the bottom of the stack"
  | .clauseWithoutStatement => "a clause must directly follow a statement"
  | .expressionAtBottom => "an expression cannot be the bottom of the stack"
  | .expressionOutsideClause => "an expression must be nested in a clause"

/-- Why a tree does not compile, or a compiled tree does not answer. -/
inductive CompileError
  | noRoots (statement : NodeId)
  | recursiveSubquery (statement : NodeId)
  | unknownRecordType (recordType : String)
  | unknownField
      (recordType : String)
      (field : String)
  | invalidNavigation
      (recordType : String)
      (field : String)
      (fault : NavigationFault)
  | onConditionOnMergedJoin (field : String)
  | conflictingAliases
      (field : String)
      (existing : String)
      (requested : String)
  | anonymousParameterReused (parameter : NodeId)
  | namedParameterConflict
      (name : String)
      (first : NodeId)
      (second : NodeId)
  | unknownPathIdentity (identity : PathIdentity)
  | aliasNotAllocated (vertex : VertexId)
  | pathIdentityMismatch
      (expected : PathIdentity)
      (found : PathIdentity)
  | pathIdentityOverflow (allocated : Nat)
  | invalidStackPush
      (entry : StackEntry)
      (fault : PushFault)
  | emptyPathStack
  | notAPath (entry : StackEntry)
  | invalidSchema (error : SchemaError)
  | tree (error : TreeError)
  | freeze (error : FreezeError)
  /-- The tree refers back to itself other than through a subquery. -/
  | unfounded
  deriving DecidableEq, Repr

namespace CompileError

/-- A failed look-up in the schema. Anything else that is wrong with the schema is
reported as such. -/
def ofSchema : SchemaError -> CompileError
  | .unknownRecordType recordType => .unknownRecordType recordType
  | .unknownField recordType field => .unknownField recordType field
  | other => .invalidSchema other

/-- The wording of a compilation error. -/
def message : CompileError -> String
  | .noRoots statement => "Statement " ++ statement.toText ++ " declares no source"
  | .recursiveSubquery statement =>
      "Subquery " ++ statement.toText ++ " refers to itself while it is being compiled"
  | .unknownRecordType recordType => (SchemaError.unknownRecordType recordType).message
  | .unknownField recordType field => (SchemaError.unknownField recordType field).message
  | .invalidNavigation recordType field fault =>
      "Cannot navigate through \x60" ++ recordType ++ "." ++ field ++ "\x60: " ++ fault.message
  | .onConditionOnMergedJoin field =>
      "Join \x60" ++ field ++
        "\x60 merges into an existing edge and cannot carry an on-condition"
  | .conflictingAliases field existing requested =>
      "Merged join \x60" ++ field ++ "\x60 has conflicting aliases \x60" ++ existing ++
        "\x60 and \x60" ++ requested ++ "\x60"
  | .anonymousParameterReused parameter =>
      "Anonymous parameter " ++ parameter.toText ++ " is used more than once"
  | .namedParameterConflict name first second =>
      "Named parameter \x60" ++ name ++ "\x60 refers to both " ++ first.toText ++ " and " ++
        second.toText
  | .unknownPathIdentity identity =>
      "Path identity " ++ identity.toText ++ " was not produced by this compilation"
  | .aliasNotAllocated vertex =>
      "Graph node " ++ toString vertex.index ++ " was pruned and has no alias"
  | .pathIdentityMismatch expected found =>
      "Replayed path identity " ++ found.toText ++ " does not match " ++ expected.toText
  | .pathIdentityOverflow allocated =>
      "Replay allocated more path identities than the " ++ toString allocated ++
        " of the compilation"
  | .invalidStackPush entry fault =>
      "Cannot push " ++ entry.toText ++ " onto the path stack: " ++ fault.message
  | .emptyPathStack => "Path stack is empty"
  | .notAPath entry => "Top of the path stack is " ++ entry.toText ++ ", not a path"
  | .invalidSchema error => "Schema definition error: " ++ error.message
  | .tree error => error.message
  | .freeze error => error.message
  | .unfounded => "The tree refers back to itself"

end CompileError
end QueryGraph
