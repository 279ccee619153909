import QueryGraph.Compile.Error

/-!
# Parameters

The placeholders of a statement in the order in which a walk meets them. A name
denotes one placeholder, and a positional placeholder is met only once.
-/

namespace QueryGraph

/-- The placeholders met so far. -/
structure ParameterRegistry where
  /-- Each name with its placeholder, in the order of first occurrence. -/
  named : List (String × NodeId) := []
  /-- The positional placeholders in order. -/
  anonymous : List NodeId := []
  deriving DecidableEq, Repr

namespace ParameterRegistry

/-- Meets a named placeholder. -/
def registerNamed
    (name : String)
    (parameter : NodeId) : EStateM CompileError ParameterRegistry Unit := do
  let registry ← get
  match registry.named.lookup name with
  | some first =>
      if first = parameter then return ()
      else throw (.namedParameterConflict name first parameter)
  | none => set { registry with named := registry.named ++ [(name, parameter)] }

/-- Meets a positional placeholder and returns its position, counted from one. -/
def registerAnonymous (parameter : NodeId) : EStateM CompileError ParameterRegistry Nat := do
  let registry ← get
  if parameter ∈ registry.anonymous then throw (.anonymousParameterReused parameter)
  else
    set { registry with anonymous := registry.anonymous ++ [parameter] }
    return registry.anonymous.length + 1

/-- The position of a positional placeholder, counted from one. -/
def position? (registry : ParameterRegistry) (parameter : NodeId) : Option Nat :=
  (registry.anonymous.idxOf? parameter).map (· + 1)

/-- The number of placeholders. -/
def size (registry : ParameterRegistry) : Nat :=
  registry.named.length + registry.anonymous.length

end ParameterRegistry
end QueryGraph
