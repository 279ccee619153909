import QueryGraph.Config
import QueryGraph.Environment.Basic

/-!
# Unusable configurations

Why a configuration cannot be read or may not be used.
-/

namespace QueryGraph

/-- Why there is no usable configuration. -/
inductive ConfigError
  /-- A variable is set to bytes that are not a text. -/
  | notText (bytes : List UInt8)
  /-- A variable that holds a truth value is set to something else. -/
  | notBool
      (name : String)
      (value : String)
  /-- The file of the configuration cannot be read. -/
  | missing
  /-- The text of the file is not a configuration. -/
  | unreadable (text : String)
  | invalid (problems : List ConfigProblem)
  deriving DecidableEq, Repr

/-- The wording of a configuration error. -/
def ConfigError.message : ConfigError -> String
  | .notText bytes =>
      "Environment variable error: environment variable was not valid unicode: " ++
        Environment.quoted bytes
  | .notBool name value =>
      "Parse error for " ++ name ++ ": " ++ value ++
        " - provided string was not \x60true\x60 or \x60false\x60"
  | .missing => "Parse error for yaml_file: file read failed"
  | .unreadable text => "Parse error for yaml_content: " ++ text
  | .invalid problems =>
      "Validation error: " ++
        "\n".intercalate (problems.map fun problem => problem.member ++ ": " ++ problem.message)

end QueryGraph
