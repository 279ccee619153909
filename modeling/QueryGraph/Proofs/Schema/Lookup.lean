import QueryGraph.Graph.Declarations
import QueryGraph.Proofs.Entries
import QueryGraph.Proofs.Operation
import QueryGraph.Schema.Declaration

/-!
# Looking up names in a schema

A look-up finds what the schema declares. A failed one reports an unknown record type only when
it started from a name that no record type has. Every relation of a validated schema leads to a
record type of the schema, so that a look-up that starts from one never misses one.
-/

namespace QueryGraph

/-- The unknown record type that an error reports, if it reports one, is among some names. -/
def CompileError.Blames (error : CompileError) (names : String -> Prop) : Prop :=
  ∀ name, error = .unknownRecordType name -> names name

/-- An error that reports no unknown record type. -/
def CompileError.Blameless (error : CompileError) : Prop :=
  ∀ name, error ≠ .unknownRecordType name

theorem CompileError.Blameless.blames
    {error : CompileError}
    {names : String -> Prop}
    (blameless : error.Blameless) :
    error.Blames names :=
  fun name same => absurd same (blameless name)

namespace Schema

/-- A declared field of a declared record type. -/
def fieldOf?
    (schema : Schema)
    (recordType name : String) : Option Field :=
  (schema.recordType? recordType).bind fun declared => declared.field? name

theorem requireField_eq_ok
    {schema : Schema}
    {recordType name : String}
    {field : Field} :
    schema.requireField recordType name = .ok field ↔
      schema.fieldOf? recordType name = some field := by
  unfold requireField Schema.field Schema.recordType fieldOf?
  rw [Operation.mapError_eq_ok]
  cases schema.recordType? recordType with
  | none => simp
  | some declared => cases found : declared.field? name <;> simp [found]

theorem requireRecordType_eq_ok
    {schema : Schema}
    {name : String}
    {declared : RecordType} :
    schema.requireRecordType name = .ok declared ↔ schema.recordType? name = some declared := by
  unfold requireRecordType Schema.recordType
  rw [Operation.mapError_eq_ok]
  cases schema.recordType? name <;> simp

theorem relationTarget_eq_ok
    {schema : Schema}
    {recordType name target : String} :
    schema.relationTarget recordType name = .ok target ↔
      ∃ field, schema.fieldOf? recordType name = some field ∧ field.target? = some target := by
  unfold relationTarget
  cases required : schema.requireField recordType name with
  | error error =>
      constructor
      · intro contrary
        cases contrary
      · rintro ⟨field, found, -⟩
        rw [requireField_eq_ok.mpr found] at required
        cases required
  | ok field =>
      have found := requireField_eq_ok.mp required
      have only : (∃ other, schema.fieldOf? recordType name = some other ∧
          other.target? = some target) ↔ field.target? = some target := by
        simp only [found, Option.some.injEq, exists_eq_left']
      rw [only]
      cases leads : field.target? with
      | none => simp [bind, Except.bind, leads]
      | some other => simp [bind, Except.bind, leads, pure, Except.pure]

/-- The name is that of a record type. -/
def Declares (schema : Schema) (name : String) : Prop :=
  ∃ recordType, schema.recordType? name = some recordType

/-! ## What a failed look-up reports -/

variable {schema : Schema} {recordType name : String} {error : CompileError}
  {names : String -> Prop}

theorem blames_requireRecordType
    (refused : schema.requireRecordType name = .error error)
    (named : names name) :
    error.Blames names := by
  unfold requireRecordType Schema.recordType at refused
  cases found : schema.recordType? name with
  | some declared =>
      rw [found] at refused
      cases refused
  | none =>
      rw [found] at refused
      cases refused
      rintro _ ⟨⟩
      exact named

theorem blames_requireField
    (declares : schema.Declares recordType)
    (refused : schema.requireField recordType name = .error error) :
    error.Blames names := by
  obtain ⟨declared, found⟩ := declares
  unfold requireField Schema.field Schema.recordType at refused
  rw [found] at refused
  cases fieldFound : declared.field? name with
  | some field =>
      simp only [fieldFound] at refused
      cases refused
  | none =>
      simp only [fieldFound] at refused
      cases refused
      rintro _ ⟨⟩

theorem blames_relationTarget
    (declares : schema.Declares recordType)
    (refused : schema.relationTarget recordType name = .error error) :
    error.Blames names := by
  unfold relationTarget at refused
  cases required : schema.requireField recordType name with
  | error other =>
      rw [required] at refused
      cases refused
      exact blames_requireField declares required
  | ok field =>
      rw [required] at refused
      cases leads : field.target? with
      | some target => simp [bind, Except.bind, leads, pure, Except.pure] at refused
      | none =>
          simp only [bind, Except.bind, leads] at refused
          cases refused
          rintro _ ⟨⟩

/-! ## Closed schemas -/

/-- Every relation leads to a record type. -/
def Closed (schema : Schema) : Prop :=
  ∀ recordType name target, schema.relationTarget recordType name = .ok target ->
    schema.Declares target

/-- A schema without a dangling relation is closed. -/
theorem closed_of_danglingRelation? (valid : schema.danglingRelation? = none) : schema.Closed := by
  intro recordType name target leads
  obtain ⟨field, found, isTarget⟩ := relationTarget_eq_ok.mp leads
  obtain ⟨declared, typeFound, fieldFound⟩ := Option.bind_eq_some_iff.mp found
  have listed : (recordType, declared) ∈ schema.recordTypes.entries :=
    Entries.mem_of_lookup typeFound
  have entries := List.findSome?_eq_none_iff.mp valid _ listed
  have fields := List.findSome?_eq_none_iff.mp entries field (RecordType.mem_of_field? fieldFound).1
  rw [isTarget] at fields
  by_cases contained : schema.recordTypes.contains target
  · exact Option.isSome_iff_exists.mp contained
  · simp [contained] at fields

/-- A schema that was built from a declaration is closed. -/
theorem closed_of_toSchema
    {declaration : SchemaDeclaration}
    (built : declaration.toSchema = .ok schema) :
    schema.Closed := by
  unfold SchemaDeclaration.toSchema at built
  cases unchecked : declaration.toUncheckedSchema with
  | error error =>
      rw [unchecked] at built
      cases built
  | ok found =>
      cases valid : found.danglingRelation? with
      | none =>
          have validated : found.validate = .ok () := by rw [validate, valid]
          rw [unchecked] at built
          simp only [bind, Except.bind, validated, pure, Except.pure, Except.ok.injEq] at built
          rw [← built]
          exact closed_of_danglingRelation? valid
      | some dangling =>
          have refused : ∃ error, found.validate = .error error := by
            rw [validate, valid]
            exact ⟨_, rfl⟩
          obtain ⟨error, refused⟩ := refused
          rw [unchecked] at built
          simp [bind, Except.bind, refused] at built

end Schema
end QueryGraph
