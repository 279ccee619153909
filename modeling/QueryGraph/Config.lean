/-!
# Configuration

Whether the schema is trusted, and which prefixes generated aliases have. The two
prefixes have to be different fragments of identifiers. A problem of a single
member hides the problems of the configuration as a whole.
-/

namespace QueryGraph

/-- The configuration of a compilation. -/
structure CompilerConfig where
  /-- Whether a many-to-one relation that may not be absent always has a match. -/
  strictSchema : Bool := false
  /-- The alias prefix of roots and of edges that sources share. -/
  sharedAliasPrefix : String := "shared_alias_"
  /-- The alias prefix of edges that belong to one source. -/
  unsharedAliasPrefix : String := "unshared_alias_"
  deriving DecidableEq, Repr, Inhabited

/-- What is wrong with a configuration that could be read. -/
inductive ConfigProblem
  | emptySharedPrefix
  | emptyUnsharedPrefix
  | prefixCollision
  | prefixFormat (text : String)
  deriving DecidableEq, Repr

namespace ConfigProblem

/-- The member that a problem is about; the word for all of them otherwise. -/
def member : ConfigProblem -> String
  | .emptySharedPrefix => "shared_alias_prefix"
  | .emptyUnsharedPrefix => "unshared_alias_prefix"
  | .prefixCollision | .prefixFormat _ => "__all__"

/-- The code of a problem. -/
def code : ConfigProblem -> String
  | .emptySharedPrefix | .emptyUnsharedPrefix => "length"
  | .prefixCollision => "alias_prefix_collision"
  | .prefixFormat _ => "alias_prefix_format"

/-- The wording of a problem. -/
def message : ConfigProblem -> String
  | .emptySharedPrefix => "Shared alias prefix cannot be empty"
  | .emptyUnsharedPrefix => "Unshared alias prefix cannot be empty"
  | .prefixCollision => "Shared and unshared alias prefixes must differ"
  | .prefixFormat text =>
      "Alias prefix \x60" ++ text ++ "\x60 must be an identifier fragment"

end ConfigProblem

/-- An ASCII letter, an ASCII digit or an underscore. -/
def isIdentifierCharacter (character : Char) : Bool :=
  character.isAlphanum || character == '_'

/-- Whether a text consists of identifier characters and does not begin with a
digit. -/
def isIdentifierFragment (text : String) : Bool :=
  text.toList.all isIdentifierCharacter && !text.toList.head?.any Char.isDigit

namespace CompilerConfig

/-- The configuration that trusts the schema. -/
def strict : CompilerConfig := { strictSchema := true }

/-- The prefixes that are empty. -/
def emptyPrefixes (config : CompilerConfig) : List ConfigProblem :=
  (if config.sharedAliasPrefix = "" then [.emptySharedPrefix] else []) ++
    (if config.unsharedAliasPrefix = "" then [.emptyUnsharedPrefix] else [])

/-- What is wrong with two prefixes that are not empty. -/
def prefixProblems (config : CompilerConfig) : List ConfigProblem :=
  if config.sharedAliasPrefix = config.unsharedAliasPrefix then [.prefixCollision]
  else if !isIdentifierFragment config.sharedAliasPrefix then
    [.prefixFormat config.sharedAliasPrefix]
  else if !isIdentifierFragment config.unsharedAliasPrefix then
    [.prefixFormat config.unsharedAliasPrefix]
  else []

/-- Everything that is wrong with a configuration. -/
def problems (config : CompilerConfig) : List ConfigProblem :=
  match config.emptyPrefixes with
  | [] => config.prefixProblems
  | empty => empty

/-- Whether a configuration may be used. -/
def isValid (config : CompilerConfig) : Bool := config.problems.isEmpty

end CompilerConfig
end QueryGraph
