import QueryGraph.Binary64.Basic

/-!
# Structured values

The untyped form of a document: scalars, lists, and records whose members are
reached by name. A record of a document may also be written as the list of its
members in their declared order, and a member of a record may be addressed by
its position in that order.
-/

namespace QueryGraph

/-- How a record addresses a member. -/
inductive Key
  | name (text : String)
  | position (index : Nat)
  /-- A key that addresses no member of any record. -/
  | other
  deriving DecidableEq, Repr

/-- A structured value. -/
inductive Value
  | null
  | bool (value : Bool)
  | integer (value : Int)
  | float (value : Binary64)
  | text (text : String)
  | list (items : List Value)
  | record (members : List (Key × Value))
  deriving Repr

namespace Value

/-- The number of lists and records nested in one another, counted from one. -/
def depth : Value -> Nat
  | .null | .bool _ | .integer _ | .float _ | .text _ => 1
  | .list items => itemsDepth items + 1
  | .record members => membersDepth members + 1
where
  /-- The greatest depth of a list of values. -/
  itemsDepth : List Value -> Nat
    | [] => 0
    | item :: items => max item.depth (itemsDepth items)
  /-- The greatest depth of the members of a record. -/
  membersDepth : List (Key × Value) -> Nat
    | [] => 0
    | (_, value) :: members => max value.depth (membersDepth members)

/-- The truth value. -/
def bool? : Value -> Option Bool
  | .bool value => some value
  | _ => none

/-- The text. -/
def text? : Value -> Option String
  | .text content => some content
  | _ => none

/-- The items of a list. -/
def list? : Value -> Option (List Value)
  | .list items => some items
  | _ => none

/-- Reads an optional member. Null means that the member is absent. -/
def optional? (read : Value -> Option α) : Value -> Option (Option α)
  | .null => some none
  | value => (read value).map some

/-- Reads every item of a list. -/
def listOf? (read : Value -> Option α) (value : Value) : Option (List α) :=
  value.list?.bind fun items => items.mapM read

/-- Whether a value says nothing beside a word. Where `emptyRecords` are admitted, they
say nothing either. -/
def isBlank (emptyRecords : Bool) : Value -> Bool
  | .null => true
  | .record [] => emptyRecords
  | _ => false

/-- The word that a key stands for: its name, or the word at its position. -/
def Key.word? (words : List String) : Key -> Option String
  | .name content => some content
  | .position index => words[index]?
  | .other => none

/-- A word of an enumeration: its name, or a record of one member that has the word as
its key and nothing as its value. -/
def word?
    (words : List String)
    (emptyRecords : Bool) : Value -> Option String
  | .text content => some content
  | .record [(key, value)] =>
      if value.isBlank emptyRecords then Key.word? words key else none
  | _ => none

/-- The position of a key among the declared members. Positions and names that
are not declared give `none`, which is to be ignored; a key that addresses
nothing is an error. -/
def Key.resolve? (names : List String) : Key -> Option (Option Nat)
  | .name content => some (names.idxOf? content)
  | .position index => some (if index < names.length then some index else none)
  | .other => none

/-- The declared members found in a record, by position. A member that occurs
twice is an error. -/
def membersOf?
    (names : List String) : List (Key × Value) -> Option (List (Nat × Value))
  | [] => some []
  | (key, value) :: rest =>
      match Key.resolve? names key, membersOf? names rest with
      | some (some index), some found =>
          if (found.lookup index).isSome then none else some ((index, value) :: found)
      | some none, some found => some found
      | _, _ => none

/-- The declared members of a record, by position. -/
def recordMembers?
    (names : List String) : Value -> Option (Nat -> Option Value)
  | .record members => (membersOf? names members).map fun found index => found.lookup index
  | _ => none

/-- The declared members of a record or of the list of its members. -/
def declaredMembers?
    (names : List String) : Value -> Option (Nat -> Option Value)
  | .list items =>
      if items.length ≤ names.length then some fun index => items[index]? else none
  | value => value.recordMembers? names

/-- Reads a member that has to be there. -/
def required?
    (members : Nat -> Option Value)
    (index : Nat)
    (read : Value -> Option α) : Option α :=
  (members index).bind read

/-- Reads a member that may be missing. -/
def withDefault?
    (members : Nat -> Option Value)
    (index : Nat)
    (fallback : α)
    (read : Value -> Option α) : Option α :=
  match members index with
  | none => some fallback
  | some value => read value

end Value
end QueryGraph
