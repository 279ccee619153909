import QueryGraph.Binary64.Reading
import QueryGraph.Yaml.Reading

/-!
# The meaning of scalars

A plain scalar is read as null, as a truth value, as an integer, as a floating-point
number, or else as text. A quoted or block scalar is text. A tag overrides this.
Integers may be decimal, hexadecimal, octal or binary; a decimal number with a
superfluous leading zero is text.
-/

namespace QueryGraph
namespace Yaml

/-- What a plain scalar means. -/
inductive Meaning
  | null
  | bool (value : Bool)
  | integer (value : Int)
  /-- An integer beyond the range of documents. -/
  | wideInteger (value : Int)
  | float (value : Binary64)
  | text
  deriving DecidableEq, Repr

/-- The words for null. -/
def isNullWord (text : String) : Bool :=
  text == "null" || text == "Null" || text == "NULL" || text == "~"

/-- The words for truth values. -/
def boolWord? (text : String) : Option Bool :=
  if text == "true" || text == "True" || text == "TRUE" then some true
  else if text == "false" || text == "False" || text == "FALSE" then some false
  else none

/-- Reads digits of a base up to sixteen. -/
def digitsOfBase? (base : Nat) (digits : List Char) : Option Nat :=
  if digits.isEmpty then none
  else
    digits.foldlM (fun value digit =>
      match hexDigit? digit with
      | some digit => if digit < base then some (base * value + digit) else none
      | none => none) 0

/-- Whether digits have a superfluous leading zero. -/
def hasLeadingZero : List Char -> Bool
  | '0' :: rest => !rest.isEmpty && rest.all Char.isDigit
  | _ => false

/-- Reads an integer without its sign. -/
def magnitude? : List Char -> Option Nat
  | '0' :: 'x' :: digits => digitsOfBase? 16 digits
  | '0' :: 'o' :: digits => digitsOfBase? 8 digits
  | '0' :: 'b' :: digits => digitsOfBase? 2 digits
  | digits => if hasLeadingZero digits then none else digitsOfBase? 10 digits

/-- The number of values that a word of some bits takes. -/
def wordValues (width : Nat) : Int := Nat.pow 2 width

/-- Sorts an integer by its size: what fits a signed or unsigned word of 64 bits,
what only fits a word of 128 bits, and what is no integer at all. -/
def sortInteger (value : Int) : Option Meaning :=
  if -wordValues 63 ≤ value && value < wordValues 64 then some (.integer value)
  else if -wordValues 127 ≤ value && value < wordValues 128 then some (.wideInteger value)
  else none

/-- Reads an integer. -/
def integer? (text : List Char) : Option Meaning :=
  match text with
  | '-' :: digits => (magnitude? digits).bind fun value => sortInteger (-value)
  | '+' :: digits => (magnitude? digits).bind fun value => sortInteger value
  | digits => (magnitude? digits).bind fun value => sortInteger value

/-- Reads a floating-point number. A number too large for one is not one. -/
def float? (text : String) : Option Binary64 :=
  if text == ".nan" || text == ".NaN" || text == ".NAN" then some .notANumber
  else
    match text.toList with
    | '-' :: word =>
        if infinityWords.contains (String.ofList word) then some (.infinity true)
        else finite? text
    | '+' :: word =>
        if infinityWords.contains (String.ofList word) then some (.infinity false)
        else
          match word with
          | '+' :: _ => none
          | '-' :: _ => none
          | _ => finite? (String.ofList word)
    | _ => if infinityWords.contains text then some (.infinity false) else finite? text
where
  /-- The words for infinity. -/
  infinityWords : List String := [".inf", ".Inf", ".INF"]
  /-- A decimal number that does not overflow. -/
  finite? (text : String) : Option Binary64 :=
    match Binary64.ofText? text with
    | some number => if number.isFinite then some number else none
    | none => none

/-- Whether a text is a sign and digits with a superfluous leading zero. -/
def isZeroPadded (text : List Char) : Bool :=
  match text with
  | '-' :: digits | '+' :: digits => hasLeadingZero digits
  | digits => hasLeadingZero digits

/-- What a plain scalar means. -/
def meaning (text : String) : Meaning :=
  if text.isEmpty || isNullWord text then .null
  else
    match boolWord? text with
    | some value => .bool value
    | none =>
        match integer? text.toList with
        | some meaning => meaning
        | none =>
            if isZeroPadded text.toList then .text
            else
              match float? text with
              | some value => .float value
              | none => .text

/-- What a scalar means, given its tag. The tag of a core type has to fit the text. A
plain scalar with the tag of an application means what it would without one. -/
def taggedMeaning
    (tag : Option Tag)
    (style : Style)
    (text : String) : Except Misfit Meaning :=
  match tag with
  | some .bool => fitting ((boolWord? text).map .bool) "a boolean"
  | some .integer => fitting (integer? text.toList) "an integer"
  | some .float => fitting ((float? text).map .float) "a float"
  | some .null => fitting (if isNullWord text then some .null else none) "null"
  | some .foreign => .ok .text
  | none | some .nameless | some (.application _) =>
      .ok (if style == .plain then meaning text else .text)
where
  /-- The meaning that a tag asks for, if the text has it. -/
  fitting (meaning : Option Meaning) (expected : String) : Except Misfit Meaning :=
    match meaning with
    | some meaning => .ok meaning
    | none => .error (.wrongText text expected)

/-- What a scalar is found to be. -/
def Meaning.finding (text : String) : Meaning -> Finding
  | .null => .null
  | .bool value => .bool value
  | .integer value => .integer value
  | .wideInteger value => .wideInteger value
  | .float value => .float value
  | .text => .text text

namespace Node

/-- Whether nothing was written. -/
def isEmpty : Node -> Bool
  | .scalar _ _ .plain text => text.isEmpty
  | _ => false

/-- Whether a node means null where a text may be missing. -/
def isAbsent : Node -> Bool
  | .scalar _ tag .plain text =>
      match tag with
      | some tag => tag == .null && isNullWord text
      | none => text.isEmpty || isNullWord text
  | _ => false

/-- Why a node is unfit where something else is expected. -/
def misfit (expected : String) : Node -> Misfit
  | .scalar _ tag style text =>
      match taggedMeaning tag style text with
      | .ok meaning => .wrongType (meaning.finding text) expected
      | .error misfit => misfit
  | .mapping _ _ _ => .wrongType .mapping expected
  | _ => .wrongType .sequence expected

/-- The step from a mapping to the value of a key. -/
def stepTo : (key : Node) -> Step
  | .scalar _ _ _ text => .member text
  | _ => .unnamed

end Node

namespace Reading

/-- Reads the node that a node leads to, and meets misfits at its place. -/
def atTarget (node : Node) (read : Node -> Reading α) : Reading α := do
  let target ← follow node
  located target.mark (read target)

/-- The text of a scalar, whatever it means, where something is expected. -/
def textFor (expected : String) (node : Node) : Reading String :=
  atTarget node fun
    | .scalar _ _ _ text => return text
    | target => unfit (target.misfit expected)

/-- The text of a scalar, whatever it means. -/
def text : Node -> Reading String := textFor "a string"

/-- The text of a scalar, or nothing for null. A null tag on other text is unfit. -/
def optionalText (node : Node) : Reading (Option String) := do
  let target ← follow node
  if target.isAbsent then return none
  match target with
  | .scalar _ (some .null) .plain text => unfit (.wrongText text "null")
  | _ => some <$> text target

/-- A truth value. -/
def bool (node : Node) : Reading Bool :=
  atTarget node fun target => do
    let word :=
      match target with
      | .scalar _ _ .plain text | .scalar _ (some .bool) .literal text => boolWord? text
      | _ => none
    match word with
    | some value => return value
    | none => unfit (target.misfit "a boolean")

/-- What a word stands for. -/
def known (words : List (String × α)) (word : String) : Reading α :=
  match words.lookup word with
  | some value => return value
  | none => unfit (.unknownWord word (words.map Prod.fst))

/-- What the word of a node that is no reference stands for: the text of a scalar, or the
tag of an application on nothing. -/
def wordOf (words : List (String × α)) (target : Node) : Reading α :=
  match target with
  | .scalar mark (some (.application name)) style text => do
      let value ← known words name
      if style == .plain && (text.isEmpty || isNullWord text) then return value
      else located mark (unfit (.wrongText text "null"))
  | .scalar mark _ _ text => located mark (known words text)
  | .sequence mark (some (.application name)) _
  | .mapping mark (some (.application name)) _ => do
      let _ ← known words name
      located mark (unfit (target.misfit "unit"))
  | _ => located target.mark (unfit (target.misfit "a YAML tag starting with '!'"))

/-- What the word of a node stands for. -/
def word (words : List (String × α)) (node : Node) : Reading α := do
  let target ← follow node
  match node with
  | .reference mark _ => located mark (wordOf words target)
  | _ => wordOf words target

/-- The items of a sequence. Where nothing was written there are none. -/
def items (read : Node -> Reading α) (node : Node) : Reading (List α) :=
  atTarget node fun
    | .sequence _ _ items => items.zipIdx.mapM fun (item, index) =>
        within (.item index) (read item)
    | target => if target.isEmpty then return [] else unfit (target.misfit "a sequence")

/-- The members of a mapping, where something is expected. Where nothing was written
there are none. -/
def entries
    (expected : String)
    (target : Node) : Reading (List (Node × Node)) :=
  match target with
  | .mapping _ _ entries => return entries
  | target => if target.isEmpty then return [] else unfit (target.misfit expected)

/-- The members of a mapping by the texts of their keys. -/
def members (read : String -> Node -> Reading α) (node : Node) : Reading (List (String × α)) :=
  atTarget node fun target => do
    (← entries "a map" target).mapM fun (key, value) => do
      let name ← text key
      return (name, ← within key.stepTo (read name value))

/-- How the known members of a record are read into a draft of it, by their names. -/
abbrev Members (σ : Type) := List (String × (σ -> Node -> Reading σ))

/-- Reads the known members of a record into a draft, given the names of those read
before. A known member may not occur twice; others are ignored, and references in them
are not followed. -/
def draft
    (known : Members σ) :
    (seen : List String) -> (draft : σ) -> List (Node × Node) -> Reading σ
  | _, draft, [] => return draft
  | seen, draft, (key, value) :: entries => do
      let name ← textFor "field identifier" key
      match known.lookup name with
      | none => Reading.draft known seen draft entries
      | some read =>
          if seen.contains name then unfit (.repeatedMember name)
          Reading.draft known (name :: seen) (← within key.stepTo (read draft value)) entries

/-- Reads a record, which is expected under a name, by a draft of its members. -/
def record
    (expected : String)
    (known : Members σ)
    (begun : σ)
    (finish : σ -> Reading α)
    (node : Node) : Reading α :=
  atTarget node fun target => do
    finish (← draft known [] begun (← entries expected target))

/-- A member that a record has to have. -/
def required (name : String) : Option α -> Reading α
  | some value => return value
  | none => unfit (.missingMember name)

end Reading
end Yaml
end QueryGraph
