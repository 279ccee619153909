import QueryGraph.CommandLine.Arguments
import QueryGraph.Document.Build
import QueryGraph.Document.Read
import QueryGraph.Environment.File
import QueryGraph.Report.Basic
import QueryGraph.Schema.Read

/-!
# Running the program

One run reads a configuration, a schema and a query, compiles the query and reports
the result. Everything that the run can see is an argument, so a run is a function.
-/

namespace QueryGraph
namespace CommandLine

/-- What a run can see besides its arguments. -/
structure Surroundings where
  environment : Environment
  /-- The text of the file at a path, if it can be read. -/
  fileText : String -> Option String

/-- What a run leaves behind. -/
structure Outcome where
  code : Nat
  /-- What is written as the result. -/
  output : String := ""
  /-- What is complained about. -/
  complaint : Option String := none
  deriving DecidableEq, Repr

/-- Why a run fails. -/
inductive Failure
  | configuration
      (path : String)
      (error : ConfigError)
  | environment (error : ConfigError)
  | overrides (error : ConfigError)
  | schema
      (path : String)
      (error : SchemaError)
  | query
      (path : String)
      (error : DocumentError)
  | document (error : DocumentError)
  | compilation (error : CompileError)
  | release (error : FreezeError)
  deriving DecidableEq, Repr

/-- The wording of a failure. Where something cannot be loaded, it says what. -/
def Failure.message : Failure -> String
  | .configuration path _ => "loading configuration " ++ path
  | .environment _ => "reading configuration from environment"
  | .overrides error => error.message
  | .schema path _ => "loading schema " ++ path
  | .query path _ => "loading query " ++ path
  | .document error => error.message
  | .compilation error => error.message
  | .release error => error.message

/-- The text that names the program and its version. -/
def versionText : String := "relgraph 0.1.0-dev\n"

/-- The text that describes the options. -/
def helpText : String :=
  "Relgraph - compile a declarative query document into its join graph\n\n" ++
  "Usage: relgraph [OPTIONS] --schema <SCHEMA> --query <QUERY>\n\n" ++
  "Options:\n" ++
  "      --schema <SCHEMA>\n" ++
  "          Schema YAML describing record types and relations\n" ++
  "      --query <QUERY>\n" ++
  "          Query document YAML\n" ++
  "      --config <CONFIG>\n" ++
  "          Compiler configuration YAML (environment variables are used otherwise)\n" ++
  "      --strict-schema\n" ++
  "          Trust non-optional many-to-one relations to be backed by non-null keys\n" ++
  "      --shared-alias-prefix <SHARED_ALIAS_PREFIX>\n" ++
  "          Alias prefix for roots and merge-mode joins\n" ++
  "      --unshared-alias-prefix <UNSHARED_ALIAS_PREFIX>\n" ++
  "          Alias prefix for create-new joins\n" ++
  "      --json\n" ++
  "          Print a JSON summary instead of the graph dump\n" ++
  "  -h, --help\n" ++
  "          Print help\n" ++
  "  -V, --version\n" ++
  "          Print version\n"

/-- Reads a configuration from a file. -/
def readConfig
    (surroundings : Surroundings)
    (path : String) : Except ConfigError CompilerConfig :=
  match surroundings.fileText path with
  | some text => CompilerConfig.ofText text
  | none => .error .missing

/-- Reads a schema from a file. -/
def readSchema
    (surroundings : Surroundings)
    (path : String) : Except SchemaError Schema :=
  match surroundings.fileText path with
  | some text => Schema.ofText text
  | none => .error .missing

/-- Reads a query from a file. -/
def readQuery
    (surroundings : Surroundings)
    (path : String) : Except DocumentError QueryDocument :=
  match surroundings.fileText path with
  | some text => QueryDocument.ofText text
  | none => .error .missing

/-- The configuration of a run. -/
def chooseConfig
    (surroundings : Surroundings)
    (arguments : Arguments) : Except Failure CompilerConfig := do
  let config ←
    match arguments.config with
    | some path => (readConfig surroundings path).mapError (Failure.configuration path)
    | none => (CompilerConfig.ofEnvironment surroundings.environment).mapError .environment
  (config.override arguments.overrides).validate.mapError .overrides

/-- The output of a compilation. -/
def compile
    (surroundings : Surroundings)
    (arguments : Arguments) : Except Failure String := do
  let config ← chooseConfig surroundings arguments
  let schema ← (readSchema surroundings arguments.schema).mapError (.schema arguments.schema)
  let document ← (readQuery surroundings arguments.query).mapError (.query arguments.query)
  let tree ← document.build.mapError .document
  let (result, tree) := tree.compile schema config ⟨1⟩
  let compiled ← result.mapError .compilation
  let report ←
    (if arguments.json then compiled.jsonReport else compiled.report).mapError .compilation
  (compiled.close tree).1.mapError .release
  return report

/-- The surroundings after the variable file of the directory was loaded, if its
variables can hold their values. -/
def Surroundings.load? (surroundings : Surroundings) : Option Surroundings :=
  match surroundings.fileText ".env" with
  | some text =>
      (surroundings.environment.load? text).map fun environment =>
        { surroundings with environment := environment }
  | none => some surroundings

/-- Runs the program in surroundings whose variable file has been loaded. -/
def runLoaded (surroundings : Surroundings) (arguments : List String) : Outcome :=
  match Request.ofArguments arguments with
  | .error error => { code := 2, complaint := some error.message }
  | .ok .help => { code := 0, output := helpText }
  | .ok .version => { code := 0, output := versionText }
  | .ok (.compile arguments) =>
      match compile surroundings arguments with
      | .ok report => { code := 0, output := report }
      | .error failure => { code := 1, complaint := some failure.message }

/-- Runs the program. A variable file that cannot be loaded ends it before it looks at
its arguments. -/
def run (surroundings : Surroundings) (arguments : List String) : Outcome :=
  match surroundings.load? with
  | some surroundings => runLoaded surroundings arguments
  | none => { code := 101 }

end CommandLine
end QueryGraph
