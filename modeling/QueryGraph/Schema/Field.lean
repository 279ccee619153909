/-!
# Fields of record types

A field holds a plain value or relates its record to records of another type.
-/

namespace QueryGraph

/-- How many records stand on the two sides of a relation. -/
inductive RelationKind
  | oneToOne
  | manyToOne
  | oneToMany
  | manyToMany
  deriving DecidableEq, Repr

namespace RelationKind

/-- The name of a kind. -/
def name : RelationKind -> String
  | .oneToOne => "one_to_one"
  | .manyToOne => "many_to_one"
  | .oneToMany => "one_to_many"
  | .manyToMany => "many_to_many"

/-- Every kind, in the order in which a complaint about an unknown one lists them. -/
def all : List RelationKind := [.oneToOne, .manyToOne, .oneToMany, .manyToMany]

/-- Reads a kind by its name. -/
def ofName? (text : String) : Option RelationKind :=
  all.find? fun kind => kind.name == text

/-- Whether a record is related to at most one other. -/
def isToOne : RelationKind -> Bool
  | .oneToOne | .manyToOne => true
  | .oneToMany | .manyToMany => false

/-- Whether a record may be related to several others. -/
def isCollection (kind : RelationKind) : Bool := !kind.isToOne

end RelationKind

/-- What a field holds. -/
inductive FieldKind
  /-- The value that identifies a record. -/
  | identifier
  | scalar
  | relation
      (target : String)
      (kind : RelationKind)
  deriving DecidableEq, Repr

/-- A declared field. -/
structure Field where
  name : String
  kind : FieldKind
  /-- Whether the field may be absent. -/
  optional : Bool
  deriving DecidableEq, Repr

namespace Field

/-- The field that identifies a record. It is always present. -/
def identifier (name : String) : Field := ⟨name, .identifier, false⟩

/-- A plain value, which may be absent. -/
def scalar (name : String) : Field := ⟨name, .scalar, true⟩

/-- A relation. A collection may always be empty. -/
def relation
    (name target : String)
    (kind : RelationKind)
    (optional : Bool) : Field :=
  ⟨name, .relation target kind, optional || kind.isCollection⟩

/-- Whether the field identifies its record. -/
def isIdentifier (field : Field) : Bool :=
  field.kind = .identifier

/-- The kind of a relation. -/
def relationKind? (field : Field) : Option RelationKind :=
  match field.kind with
  | .relation _ kind => some kind
  | _ => none

/-- The record type that a relation leads to. -/
def target? (field : Field) : Option String :=
  match field.kind with
  | .relation target _ => some target
  | _ => none

/-- Whether the field is a relation. -/
def isRelation (field : Field) : Bool := field.target?.isSome

/-- Whether the field is a relation to at most one record. -/
def isToOne (field : Field) : Bool := field.relationKind?.any RelationKind.isToOne

/-- Whether the field is a relation to a collection of records. -/
def isCollection (field : Field) : Bool := field.relationKind?.any RelationKind.isCollection

/-- A many-to-one relation that may not be absent. Where the schema is trusted, the
key column behind it is never null and always has a match. -/
def isGuaranteedPresent (field : Field) : Bool :=
  !field.optional && field.relationKind? = some .manyToOne

end Field
end QueryGraph
