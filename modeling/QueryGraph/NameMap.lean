/-!
# Maps from names

Entries are kept in the order of their names, one entry for each name. Two maps
with the same entries are therefore the same map, whatever order the entries were
inserted in.
-/

namespace QueryGraph

/-- Values by name, in the order of the names. -/
structure NameMap (α : Type) where
  entries : List (String × α) := []
  deriving DecidableEq, Repr, Inhabited

namespace NameMap

/-- Inserts an entry into ordered entries, or replaces the one of the same name. -/
def insertEntry
    (name : String)
    (value : α) : List (String × α) -> List (String × α)
  | [] => [(name, value)]
  | (other, existing) :: rest =>
      if name = other then (name, value) :: rest
      else if name < other then (name, value) :: (other, existing) :: rest
      else (other, existing) :: insertEntry name value rest

/-- Inserts or replaces a value. -/
def insert
    (map : NameMap α)
    (name : String)
    (value : α) : NameMap α :=
  ⟨insertEntry name value map.entries⟩

/-- The value of a name. -/
def find? (map : NameMap α) (name : String) : Option α :=
  map.entries.lookup name

/-- Whether a name has a value. -/
def contains (map : NameMap α) (name : String) : Bool :=
  (map.find? name).isSome

/-- The map of a list of entries, in which the last entry of a name counts. -/
def ofList (entries : List (String × α)) : NameMap α :=
  entries.foldl (fun map entry => map.insert entry.1 entry.2) {}

/-- Looking up an inserted name finds its value, and every other name keeps its
own. -/
@[simp] theorem lookup_insertEntry
    (name other : String)
    (value : α)
    (entries : List (String × α)) :
    (insertEntry name value entries).lookup other =
      if other = name then some value else entries.lookup other := by
  induction entries with
  | nil =>
      by_cases same : other = name
      · simp [insertEntry, same]
      · have sameFalse : (other == name) = false := by simp [same]
        simp [insertEntry, List.lookup_cons, same, sameFalse]
  | cons entry rest inductionHypothesis =>
      obtain ⟨key, existing⟩ := entry
      by_cases same : other = name
      · subst same
        by_cases first : other = key
        · simp [insertEntry, first]
        · have firstFalse : (other == key) = false := by simp [first]
          by_cases before : other < key
          · simp [insertEntry, first, before]
          · simp [insertEntry, first, before, List.lookup_cons, firstFalse, inductionHypothesis]
      · have sameFalse : (other == name) = false := by simp [same]
        by_cases first : name = key
        · subst first
          simp [insertEntry, List.lookup_cons, same, sameFalse]
        · by_cases before : name < key
          · simp [insertEntry, first, before, List.lookup_cons, same, sameFalse]
          · simp [insertEntry, first, before, List.lookup_cons, same, inductionHypothesis]

/-- Looking up an inserted name finds its value, and every other name keeps its
own. -/
@[simp] theorem find?_insert
    (map : NameMap α)
    (name other : String)
    (value : α) :
    (map.insert name value).find? other =
      if other = name then some value else map.find? other := by
  simp [find?, insert]

end NameMap
end QueryGraph
