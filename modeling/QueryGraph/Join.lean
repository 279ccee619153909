/-!
# Joins

How a join treats records without a partner, and how a declared join combines
with other joins over the same relation.
-/

namespace QueryGraph

/-- Which side of a join keeps the records that have no partner. -/
inductive JoinDirection
  | inner
  | left
  | right
  deriving DecidableEq, Repr, Inhabited

namespace JoinDirection

/-- The name of a direction. -/
def name : JoinDirection -> String
  | .inner => "inner"
  | .left => "left"
  | .right => "right"

/-- Every direction. -/
def all : List JoinDirection := [.inner, .left, .right]

/-- Reads a direction by its name. -/
def ofName? (text : String) : Option JoinDirection :=
  all.find? fun direction => direction.name == text

/-- The direction of two joins that share an edge: their common direction, or
inner when they differ. -/
def merge (existing requested : JoinDirection) : JoinDirection :=
  if existing = requested then existing else .inner

@[simp] theorem merge_self (direction : JoinDirection) :
    direction.merge direction = direction := by
  simp [merge]

@[simp] theorem merge_inner (direction : JoinDirection) :
    direction.merge .inner = .inner := by
  cases direction <;> rfl

@[simp] theorem inner_merge (direction : JoinDirection) :
    JoinDirection.inner.merge direction = .inner := by
  cases direction <;> rfl

end JoinDirection

/-- How a declared join combines with sibling joins over the same relation. -/
inductive JoinMode
  /-- Reuses a compatible sibling; pruned when nothing refers to it. -/
  | optionallyMergeExisting
  /-- Reuses a compatible sibling; always kept. -/
  | requiredToMergeExisting
  /-- Always an edge of its own; pruned when nothing refers to it. -/
  | optionallyCreateNew
  /-- Always an edge of its own; always kept. -/
  | requiredToCreateNew
  deriving DecidableEq, Repr

namespace JoinMode

instance : Inhabited JoinMode := ⟨.optionallyMergeExisting⟩

/-- The name of a mode. -/
def name : JoinMode -> String
  | .optionallyMergeExisting => "optionally_merge_existing"
  | .requiredToMergeExisting => "required_to_merge_existing"
  | .optionallyCreateNew => "optionally_create_new"
  | .requiredToCreateNew => "required_to_create_new"

/-- Every mode. -/
def all : List JoinMode :=
  [.optionallyMergeExisting, .requiredToMergeExisting,
    .optionallyCreateNew, .requiredToCreateNew]

/-- Reads a mode by its name. -/
def ofName? (text : String) : Option JoinMode :=
  all.find? fun mode => mode.name == text

/-- Whether a join in this mode is always an edge of its own. -/
def isNew : JoinMode -> Bool
  | .optionallyCreateNew | .requiredToCreateNew => true
  | .optionallyMergeExisting | .requiredToMergeExisting => false

/-- Whether a join in this mode is always kept. -/
def isRequired : JoinMode -> Bool
  | .requiredToMergeExisting | .requiredToCreateNew => true
  | .optionallyMergeExisting | .optionallyCreateNew => false

/-- The required mode of the same family. -/
def toRequired (mode : JoinMode) : JoinMode :=
  if mode.isNew then .requiredToCreateNew else .requiredToMergeExisting

@[simp] theorem isRequired_toRequired (mode : JoinMode) :
    mode.toRequired.isRequired = true := by
  cases mode <;> rfl

@[simp] theorem isNew_toRequired (mode : JoinMode) :
    mode.toRequired.isNew = mode.isNew := by
  cases mode <;> rfl

end JoinMode

/-- Whether a fetched collection holds every element or only those that survive
the conditions of the query. -/
inductive CollectionFetch
  | all
  | partially
  deriving DecidableEq, Repr, Inhabited

namespace CollectionFetch

/-- The name of an extent. -/
def name : CollectionFetch -> String
  | .all => "all"
  | .partially => "partial"

/-- Reads an extent by its name. -/
def ofName? (text : String) : Option CollectionFetch :=
  [CollectionFetch.all, .partially].find? fun fetch => fetch.name == text

end CollectionFetch
end QueryGraph
