import QueryGraph.Yaml.Resolve
import QueryGraph.Value

/-!
# Documents as structured values

A document becomes a structured value when its scalars are taken for what they
mean. A tag of an application, a wide integer, or a tag that its scalar does not fit
has no value, and neither have collections that are nested too deeply.
-/

namespace QueryGraph
namespace Yaml

/-- The value of what a scalar means. -/
def Meaning.value? (text : String) : Meaning -> Option Value
  | .null => some .null
  | .bool value => some (.bool value)
  | .integer value => some (.integer value)
  | .wideInteger _ => none
  | .float value => some (.float value)
  | .text => some (.text text)

/-- The value of a scalar. -/
def scalarValue
    (tag : Option Tag)
    (style : Style)
    (text : String) : Except Misfit Value :=
  match tag with
  | some (.application _) => .error .applicationTag
  | _ => do
      let meaning ← taggedMeaning tag style text
      match meaning.value? text with
      | some value => return value
      | none => throw (.wrongType (meaning.finding text) "any value")

/-- The key that a node stands for, given its value. An integer with a minus sign is no
position, not even if it is zero. -/
def keyOf : Node -> Value -> Key
  | .scalar _ _ _ text, .integer value =>
      if text.startsWith "-" then .other else .position value.toNat
  | _, .text content => .name content
  | _, _ => .other

/-- The number of collections that may be nested in one another. -/
def depthLimit : Nat := 128

/-- Whether a node has the tag of an application. -/
def hasApplicationTag : Option Tag -> Bool
  | some tag => tag.isApplication
  | none => false

/-- The value of a node in which at most some number of collections are nested. -/
def Reading.value (depth : Nat) (node : Node) : Reading Value :=
  atTarget node fun target =>
    match target with
    | .scalar _ tag style text =>
        match scalarValue tag style text with
        | .ok value => return value
        | .error misfit => unfit misfit
    | .sequence mark tag items =>
        if hasApplicationTag tag then unfit .applicationTag
        else
          match depth with
          | 0 => throw (.tooDeep mark)
          | depth + 1 => return .list (← items.mapM (Reading.value depth))
    | .mapping mark tag entries =>
        if hasApplicationTag tag then unfit .applicationTag
        else
          match depth with
          | 0 => throw (.tooDeep mark)
          | depth + 1 => return .record (← entries.mapM fun (key, entry) => do
              let key ← follow key
              return (keyOf key (← Reading.value depth key), ← Reading.value depth entry))
    | .reference _ _ | .missing => absent

end Yaml
end QueryGraph
