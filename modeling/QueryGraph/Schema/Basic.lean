import QueryGraph.NameMap
import QueryGraph.Schema.Error
import QueryGraph.Schema.Field

/-!
# Schemas

A record type has fields with distinct names, at most one of which identifies its
records. It keeps the place of each field by its name, and looks fields up there. A
schema is a collection of record types by name; it is valid when every relation leads
to one of them.
-/

namespace QueryGraph

namespace Field

/-- Adds the place of a field, unless an earlier one has its name. -/
def addPlace (places : NameMap Nat) (placed : Field × Nat) : NameMap Nat :=
  if places.contains placed.1.name then places else places.insert placed.1.name placed.2

/-- The place of the first field of each name. -/
def places (fields : List Field) : NameMap Nat :=
  fields.zipIdx.foldl addPlace {}

theorem find?_foldl_addPlace
    (start : Nat)
    (fields : List Field)
    (places : NameMap Nat)
    (name : String) :
    ((fields.zipIdx start).foldl addPlace places).find? name =
      (places.find? name).or
        ((fields.findIdx? fun field => field.name = name).map fun place => place + start) := by
  induction fields generalizing start places with
  | nil => simp
  | cons field fields inductionHypothesis =>
      rw [List.zipIdx_cons, List.foldl_cons, inductionHypothesis, List.findIdx?_cons]
      by_cases same : field.name = name
      · cases found : places.find? name <;> simp [addPlace, NameMap.contains, same, found]
      · have shifted : (fun place => place + (start + 1)) =
            (fun place => place + start) ∘ (fun place => place + 1) := by
          funext place
          exact (Nat.add_right_comm place 1 start).symm
        have kept : (addPlace places (field, start)).find? name = places.find? name := by
          unfold addPlace
          split <;> simp [Ne.symm same]
        simp [kept, same, shifted]

/-- A name has the place of the first field that has it. -/
theorem find?_places (fields : List Field) (name : String) :
    (places fields).find? name = fields.findIdx? fun field => field.name = name := by
  unfold places
  rw [find?_foldl_addPlace]
  simp [NameMap.find?]

/-- A field with a new name is placed after all others. -/
theorem places_concat
    {fields : List Field}
    {field : Field}
    (new : (places fields).contains field.name = false) :
    places (fields ++ [field]) = (places fields).insert field.name fields.length := by
  unfold places at new ⊢
  rw [List.zipIdx_append, List.foldl_append]
  simp [addPlace, new]

end Field

/-- A record type. -/
structure RecordType where
  name : String
  fields : List Field := []
  /-- The place of the field of each name. -/
  index : NameMap Nat := Field.places fields
  /-- The index keeps step with the fields. -/
  find?_index : ∀ name, index.find? name = fields.findIdx? fun field => field.name = name := by
    exact Field.find?_places _
  deriving DecidableEq, Repr

namespace RecordType

/-- A record type with some fields. -/
def ofFields (name : String) (fields : List Field) : RecordType where
  name := name
  fields := fields

/-- Looks up a field by its name, at the place that the index has for it. -/
def field? (recordType : RecordType) (name : String) : Option Field :=
  (recordType.index.find? name).bind fun place => recordType.fields[place]?

/-- Looking up a field in the index finds the field that a search of the list finds. -/
theorem field?_eq_find? (recordType : RecordType) (name : String) :
    recordType.field? name = recordType.fields.find? fun field => field.name = name := by
  rw [field?, recordType.find?_index, List.find?_eq_bind_findIdx?_getElem?]

/-- A field that is looked up is declared, under the name that it is looked up by. -/
theorem mem_of_field?
    {recordType : RecordType}
    {name : String}
    {field : Field}
    (found : recordType.field? name = some field) :
    field ∈ recordType.fields ∧ field.name = name := by
  rw [field?_eq_find?] at found
  exact ⟨List.mem_of_find?_eq_some found, by simpa using List.find?_some found⟩

/-- The field that identifies the records. -/
def identifier? (recordType : RecordType) : Option Field :=
  recordType.fields.find? Field.isIdentifier

/-- The index after a field with a new name was added keeps step. -/
theorem find?_insert_index
    {recordType : RecordType}
    {field : Field}
    (new : ¬ recordType.index.contains field.name = true)
    (name : String) :
    (recordType.index.insert field.name recordType.fields.length).find? name =
      (recordType.fields ++ [field]).findIdx? fun other => other.name = name := by
  rw [NameMap.find?_insert, List.findIdx?_append, ← recordType.find?_index]
  unfold NameMap.contains at new
  rw [Bool.not_eq_true, Option.isSome_eq_false_iff, Option.isNone_iff_eq_none] at new
  by_cases same : name = field.name
  · simp [same, new]
  · simp [same, Ne.symm same]

/-- Adds a field at the end, and its place to the index. -/
def addField
    (recordType : RecordType)
    (field : Field) : Except SchemaError RecordType :=
  if known : recordType.index.contains field.name then
    .error (.duplicateField recordType.name field.name)
  else if field.isIdentifier && recordType.identifier?.isSome then
    .error (.multipleIdentifiers recordType.name)
  else
    .ok {
      name := recordType.name
      fields := recordType.fields ++ [field]
      index := recordType.index.insert field.name recordType.fields.length
      find?_index := find?_insert_index known }

/-- Adds fields in order, up to the first that is refused. -/
def addFields
    (recordType : RecordType)
    (fields : List Field) : Except SchemaError RecordType :=
  fields.foldlM addField recordType

end RecordType

/-- A schema. -/
structure Schema where
  recordTypes : NameMap RecordType := {}
  deriving DecidableEq, Repr, Inhabited

namespace Schema

/-- Adds a record type, or replaces the one of the same name. -/
def insert (schema : Schema) (recordType : RecordType) : Schema :=
  ⟨schema.recordTypes.insert recordType.name recordType⟩

/-- Looks up a record type. -/
def recordType? (schema : Schema) (name : String) : Option RecordType :=
  schema.recordTypes.find? name

/-- A record type that has to exist. -/
def recordType (schema : Schema) (name : String) : Except SchemaError RecordType :=
  match schema.recordType? name with
  | some recordType => .ok recordType
  | none => .error (.unknownRecordType name)

/-- A field that has to exist. -/
def field
    (schema : Schema)
    (recordType name : String) : Except SchemaError Field :=
  match schema.recordType recordType with
  | .error error => .error error
  | .ok declared =>
      match declared.field? name with
      | some field => .ok field
      | none => .error (.unknownField recordType name)

/-- The first relation that leads to no record type of the schema, with the name of
its record type and its target. -/
def danglingRelation? (schema : Schema) : Option (String × String × String) :=
  schema.recordTypes.entries.findSome? fun (name, recordType) =>
    recordType.fields.findSome? fun field =>
      match field.target? with
      | some target =>
          if schema.recordTypes.contains target then none else some (name, field.name, target)
      | none => none

/-- Checks that every relation leads to a record type of the schema. -/
def validate (schema : Schema) : Except SchemaError Unit :=
  match schema.danglingRelation? with
  | some (recordType, field, target) =>
      .error (.unknownRelationTarget recordType field target)
  | none => .ok ()

end Schema
end QueryGraph
