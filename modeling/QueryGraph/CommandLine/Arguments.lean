import QueryGraph.Config.Read

/-!
# Command-line arguments

Options have long names. A value follows its option as the next argument or after an
equals sign, and an option is given at most once. The arguments are read from left to
right; the first that is wrong, or that asks for help or for the version, decides.
-/

namespace QueryGraph
namespace CommandLine

/-- The options that take a value. -/
inductive ValueOption
  | schema
  | query
  | config
  | sharedAliasPrefix
  | unsharedAliasPrefix
  deriving DecidableEq, Repr

namespace ValueOption

/-- The name of an option. -/
def name : ValueOption -> String
  | .schema => "schema"
  | .query => "query"
  | .config => "config"
  | .sharedAliasPrefix => "shared-alias-prefix"
  | .unsharedAliasPrefix => "unshared-alias-prefix"

/-- Every option that takes a value. -/
def all : List ValueOption :=
  [.schema, .query, .config, .sharedAliasPrefix, .unsharedAliasPrefix]

/-- Whether the value is the path of a file, which may not be empty. -/
def isPath : ValueOption -> Bool
  | .schema | .query | .config => true
  | .sharedAliasPrefix | .unsharedAliasPrefix => false

end ValueOption

/-- The options that stand alone. -/
inductive SwitchOption
  | strictSchema
  | json
  | help
  | version
  deriving DecidableEq, Repr

namespace SwitchOption

/-- The name of an option. -/
def name : SwitchOption -> String
  | .strictSchema => "strict-schema"
  | .json => "json"
  | .help => "help"
  | .version => "version"

/-- Every option that stands alone. -/
def all : List SwitchOption := [.strictSchema, .json, .help, .version]

end SwitchOption

/-- What is wrong with the arguments. -/
inductive UsageError
  | unexpected (argument : String)
  | missingValue (option : ValueOption)
  | emptyValue (option : ValueOption)
  | valueForSwitch (option : SwitchOption)
  | repeatedOption (name : String)
  | required (option : ValueOption)
  deriving DecidableEq, Repr

/-- The wording of a usage error. -/
def UsageError.message : UsageError -> String
  | .unexpected argument => "unexpected argument '" ++ argument ++ "' found"
  | .missingValue option | .emptyValue option =>
      "a value is required for '--" ++ option.name ++ "' but none was supplied"
  | .valueForSwitch option => "unexpected value for '--" ++ option.name ++ "' found"
  | .repeatedOption name => "the argument '--" ++ name ++ "' cannot be used multiple times"
  | .required option => "the argument '--" ++ option.name ++ "' was not provided"

/-- The options given so far. -/
structure Given where
  values : List (ValueOption × String) := []
  switches : List SwitchOption := []
  deriving DecidableEq, Repr

/-- What a compilation is asked for on the command line. -/
structure Arguments where
  schema : String
  query : String
  config : Option String
  overrides : ConfigOverrides
  json : Bool
  deriving DecidableEq, Repr

/-- What the command line asks for. -/
inductive Request
  | compile (arguments : Arguments)
  | help
  | version
  deriving DecidableEq, Repr

namespace Given

/-- Gives an option a value. -/
def giveValue
    (given : Given)
    (option : ValueOption)
    (value : String) : Except UsageError Given :=
  if (given.values.lookup option).isSome then .error (.repeatedOption option.name)
  else if option.isPath && value.isEmpty then .error (.emptyValue option)
  else .ok { given with values := (option, value) :: given.values }

/-- Gives an option that stands alone. -/
def giveSwitch
    (given : Given)
    (option : SwitchOption) : Except UsageError Given :=
  if option ∈ given.switches then .error (.repeatedOption option.name)
  else .ok { given with switches := option :: given.switches }

/-- A path that has to be given. -/
def require (given : Given) (option : ValueOption) : Except UsageError String :=
  match given.values.lookup option with
  | some value => .ok value
  | none => .error (.required option)

/-- What all options together ask for. -/
def finish (given : Given) : Except UsageError Arguments := do
  return {
    schema := ← given.require .schema
    query := ← given.require .query
    config := given.values.lookup .config
    overrides := {
      strictSchema := decide (.strictSchema ∈ given.switches)
      sharedAliasPrefix := given.values.lookup .sharedAliasPrefix
      unsharedAliasPrefix := given.values.lookup .unsharedAliasPrefix }
    json := decide (.json ∈ given.switches) }

end Given

/-- What an argument is. -/
inductive ArgumentForm
  /-- The mark after which no options follow. -/
  | endOfOptions
  | long
      (name : String)
      (attached : Option String)
  | short (letter : Char)
  | other
  deriving DecidableEq, Repr

/-- The form of an argument. A long option ends at the first equals sign. -/
def ArgumentForm.ofText (argument : String) : ArgumentForm :=
  match argument.toList with
  | ['-', '-'] => .endOfOptions
  | '-' :: '-' :: body =>
      .long (String.ofList (body.takeWhile (· ≠ '=')))
        (match body.dropWhile (· ≠ '=') with
        | [] => none
        | _ :: attached => some (String.ofList attached))
  | '-' :: letter :: _ => .short letter
  | _ => .other

/-- Reads the remaining arguments. An argument that looks like an option is never the
value of the option before it. -/
def readArguments : Given -> List String -> Except UsageError Request
  | given, [] => given.finish.map Request.compile
  | given, argument :: rest =>
      match ArgumentForm.ofText argument with
      | .other => .error (.unexpected argument)
      | .endOfOptions =>
          match rest with
          | [] => given.finish.map Request.compile
          | next :: _ => .error (.unexpected next)
      | .short letter =>
          if letter = 'h' then .ok .help
          else if letter = 'V' then .ok .version
          else .error (.unexpected argument)
      | .long name attached =>
          match ValueOption.all.find? fun option => option.name = name with
          | some option =>
              match attached, rest with
              | some value, rest =>
                  match given.giveValue option value with
                  | .ok given => readArguments given rest
                  | .error error => .error error
              | none, [] => .error (.missingValue option)
              | none, value :: rest =>
                  if ArgumentForm.ofText value ≠ .other then .error (.missingValue option)
                  else
                    match given.giveValue option value with
                    | .ok given => readArguments given rest
                    | .error error => .error error
          | none =>
              match SwitchOption.all.find? fun option => option.name = name with
              | none => .error (.unexpected argument)
              | some option =>
                  if attached.isSome then .error (.valueForSwitch option)
                  else
                    match option with
                    | .help => .ok .help
                    | .version => .ok .version
                    | option =>
                        match given.giveSwitch option with
                        | .ok given => readArguments given rest
                        | .error error => .error error

/-- What arguments ask for. -/
def Request.ofArguments (arguments : List String) : Except UsageError Request :=
  readArguments {} arguments

end CommandLine
end QueryGraph
