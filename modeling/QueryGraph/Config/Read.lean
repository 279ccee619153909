import QueryGraph.Config.Error
import QueryGraph.Yaml.Node.OfTokens
import QueryGraph.Yaml.Resolve

/-!
# Where a configuration comes from

A configuration is read from a text or from the environment, and settings of the
command line then override it. Each of these ends with a check of the whole.
-/

namespace QueryGraph

/-- Settings that override a configuration. -/
structure ConfigOverrides where
  strictSchema : Bool := false
  sharedAliasPrefix : Option String := none
  unsharedAliasPrefix : Option String := none
  deriving DecidableEq, Repr

namespace CompilerConfig

open Yaml

/-- A configuration that may be used. -/
def validate (config : CompilerConfig) : Except ConfigError CompilerConfig :=
  match config.problems with
  | [] => .ok config
  | problems => .error (.invalid problems)

/-- The configuration with some settings overridden. The schema is trusted as soon as
one of them says so. -/
def override
    (config : CompilerConfig)
    (overrides : ConfigOverrides) : CompilerConfig where
  strictSchema := config.strictSchema || overrides.strictSchema
  sharedAliasPrefix := overrides.sharedAliasPrefix.getD config.sharedAliasPrefix
  unsharedAliasPrefix := overrides.unsharedAliasPrefix.getD config.unsharedAliasPrefix

/-- Reads a configuration. A prefix is taken by the text of its scalar. -/
def ofNode : Yaml.Node -> Reading CompilerConfig :=
  Reading.record "struct CompilerConfig"
    [("strict_schema", fun config node => return { config with
        strictSchema := ← Reading.bool node }),
      ("shared_alias_prefix", fun config node => return { config with
        sharedAliasPrefix := ← Reading.text node }),
      ("unshared_alias_prefix", fun config node => return { config with
        unsharedAliasPrefix := ← Reading.text node })]
    ({} : CompilerConfig)
    fun config => return config

/-- Reads a configuration from its text. A text without a document has only
defaults. -/
def ofText (text : String) : Except ConfigError CompilerConfig :=
  match Reading.run ofNode (Yaml.read text) with
  | .ok config => config.validate
  | .error _ => .error (.unreadable text)

/-- The variable that says whether the schema is trusted. -/
def strictVariable : String := "RELGRAPH_STRICT_SCHEMA"

/-- The variable of the prefix of shared aliases. -/
def sharedVariable : String := "RELGRAPH_SHARED_ALIAS_PREFIX"

/-- The variable of the prefix of unshared aliases. -/
def unsharedVariable : String := "RELGRAPH_UNSHARED_ALIAS_PREFIX"

/-- The text of a variable, or a default when it is not set. -/
def variableOr
    (environment : Environment)
    (name default : String) : Except ConfigError String :=
  match environment.bytes? name with
  | none => .ok default
  | some bytes =>
      match Environment.decode? bytes with
      | some text => .ok text
      | none => .error (.notText bytes)

/-- The truth value of a variable, which has only two spellings. -/
def boolVariable
    (environment : Environment)
    (name : String) : Except ConfigError Bool := do
  let text ← variableOr environment name "false"
  if text = "true" then return true
  else if text = "false" then return false
  else throw (.notBool name text)

/-- Reads a configuration from the environment. -/
def ofEnvironment (environment : Environment) : Except ConfigError CompilerConfig := do
  let default : CompilerConfig := {}
  let strict ← boolVariable environment strictVariable
  let shared ← variableOr environment sharedVariable default.sharedAliasPrefix
  let unshared ← variableOr environment unsharedVariable default.unsharedAliasPrefix
  validate ⟨strict, shared, unshared⟩

end CompilerConfig
end QueryGraph
