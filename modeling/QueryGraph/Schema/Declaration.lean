import QueryGraph.Schema.Basic

/-!
# Schema declarations

A declaration lists, for each record type, its identifier, its attributes and its
relations. It becomes a schema when no name is declared twice and every relation
leads to a declared record type.
-/

namespace QueryGraph

/-- A declared relation. -/
structure RelationDeclaration where
  target : String
  kind : RelationKind
  optional : Bool := true
  deriving DecidableEq, Repr

/-- A declared record type. -/
structure RecordTypeDeclaration where
  /-- The name of the identifier. -/
  identifier : String
  attributes : List String := []
  relations : NameMap RelationDeclaration := {}
  deriving DecidableEq, Repr

/-- A declared schema. -/
structure SchemaDeclaration where
  name : Option String := none
  recordTypes : NameMap RecordTypeDeclaration := {}
  deriving DecidableEq, Repr

/-- The fields of a declared record type: the identifier, the attributes in their
order, and the relations in the order of their names. -/
def RecordTypeDeclaration.fields (declaration : RecordTypeDeclaration) : List Field :=
  Field.identifier declaration.identifier ::
    declaration.attributes.map Field.scalar ++
      declaration.relations.entries.map fun (name, relation) =>
        Field.relation name relation.target relation.kind relation.optional

/-- The record type that a declaration describes. -/
def RecordTypeDeclaration.toRecordType
    (name : String)
    (declaration : RecordTypeDeclaration) : Except SchemaError RecordType :=
  RecordType.addFields { name := name } declaration.fields

namespace SchemaDeclaration

/-- The record types of a schema, before its relations are checked. -/
def toUncheckedSchema (declaration : SchemaDeclaration) : Except SchemaError Schema :=
  declaration.recordTypes.entries.foldlM (fun schema (name, recordType) =>
    match recordType.toRecordType name with
    | .ok built => .ok (schema.insert built)
    | .error error => .error error) {}

/-- The schema that a declaration describes. -/
def toSchema (declaration : SchemaDeclaration) : Except SchemaError Schema := do
  let schema ← declaration.toUncheckedSchema
  schema.validate
  return schema

end SchemaDeclaration
end QueryGraph
