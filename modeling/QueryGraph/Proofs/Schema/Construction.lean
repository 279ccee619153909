import Mathlib.Data.List.Nodup
import Mathlib.Data.String.Basic
import QueryGraph.Proofs.Entries
import QueryGraph.Proofs.Operation
import QueryGraph.Schema.Declaration

/-!
# The schema of a declaration

A declaration becomes a schema exactly when it is well formed: no name is declared twice in a
record type, and every relation leads to a declared record type. A name that is declared twice is
reported before any relation, and the schema of a well-formed declaration has, under every name,
the field that was declared under it.
-/

namespace QueryGraph

/-! ## Maps in the order of their names -/

/-- The entries stand in the order of their names, one for each name. -/
def NameMap.Ordered (map : NameMap α) : Prop :=
  map.entries.Pairwise fun entry later => entry.1 < later.1

namespace NameMap

variable {map : NameMap α} {name : String} {value : α}

/-- An entry whose name is greater than all others is inserted at the end. -/
theorem insert_of_greater (greater : ∀ entry ∈ map.entries, entry.1 < name) (value : α) :
    map.insert name value = ⟨map.entries ++ [(name, value)]⟩ := by
  obtain ⟨entries⟩ := map
  unfold NameMap.insert
  congr 1
  induction entries with
  | nil => rfl
  | cons first rest inductionHypothesis =>
      have less : first.1 < name := greater first List.mem_cons_self
      have rest := inductionHypothesis fun entry member =>
        greater entry (List.mem_cons_of_mem first member)
      dsimp only at rest ⊢
      rw [insertEntry, if_neg less.ne', if_neg less.asymm, rest, List.cons_append]

/-- An entry of a map in order is found by its name. -/
theorem Ordered.find?_eq_some_iff (ordered : map.Ordered) :
    map.find? name = some value ↔ (name, value) ∈ map.entries := by
  have distinct : (map.entries.map Prod.fst).Nodup :=
    (List.pairwise_map.mpr ordered).imp ne_of_lt
  exact Entries.lookup_eq_some_iff distinct

end NameMap

/-! ## Adding fields one by one -/

/-- The first name of a list that stands in it before. -/
def IsFirstRepeated (names : List String) (name : String) : Prop :=
  ∃ before after, names = before ++ name :: after ∧ before.Nodup ∧ name ∈ before

theorem IsFirstRepeated.not_nodup
    {names : List String}
    {name : String}
    (repeated : IsFirstRepeated names name) :
    ¬ names.Nodup := by
  obtain ⟨before, after, rfl, -, member⟩ := repeated
  intro nodup
  exact (List.nodup_append.mp nodup).2.2 name member name List.mem_cons_self rfl

namespace RecordType

variable {recordType : RecordType} {fields : List Field} {name : String} {field : Field} {place : Nat}

theorem isSome_field?_iff :
    (recordType.field? name).isSome ↔ name ∈ recordType.fields.map Field.name := by
  simp [field?_eq_find?]

/-- The index has the names of the fields, and no others. -/
theorem contains_index_iff :
    recordType.index.contains name = true ↔ name ∈ recordType.fields.map Field.name := by
  rw [NameMap.contains, recordType.find?_index, List.findIdx?_isSome]
  simp

/-- Fields with one name each are found by it. -/
theorem field?_eq_some_iff
    (distinct : (recordType.fields.map Field.name).Nodup) :
    recordType.field? name = some field ↔ field ∈ recordType.fields ∧ field.name = name := by
  refine ⟨mem_of_field?, ?_⟩
  rintro ⟨member, rfl⟩
  have occurs := List.mem_map_of_mem (f := Field.name) member
  obtain ⟨other, found⟩ := Option.isSome_iff_exists.mp (isSome_field?_iff.mpr occurs)
  obtain ⟨listed, sameName⟩ := mem_of_field? found
  rw [found, List.inj_on_of_nodup_map distinct listed member sameName]

/-- Where the names are distinct, the index leads from the name of every field to its place, and
nowhere else. -/
theorem find?_index_eq_some_iff
    (distinct : (recordType.fields.map Field.name).Nodup) :
    recordType.index.find? name = some place ↔
      (recordType.fields[place]?).map Field.name = some name := by
  rw [recordType.find?_index, List.findIdx?_eq_some_iff_getElem, Option.map_eq_some_iff]
  constructor
  · rintro ⟨inside, here, -⟩
    exact ⟨_, List.getElem?_eq_getElem inside, of_decide_eq_true here⟩
  · rintro ⟨field, there, rfl⟩
    obtain ⟨inside, same⟩ := List.getElem?_eq_some_iff.mp there
    refine ⟨inside, by simp [same], fun earlier before clash => ?_⟩
    have sameName : (recordType.fields.map Field.name)[earlier]? =
        (recordType.fields.map Field.name)[place]? := by
      have insideEarlier : earlier < recordType.fields.length := Nat.lt_trans before inside
      rw [List.getElem?_map, List.getElem?_map, there, List.getElem?_eq_getElem insideEarlier]
      exact congrArg some (of_decide_eq_true clash)
    have samePlace := (List.getElem?_inj (by simp; omega) distinct).mp sameName
    omega

/-- Adding a field is refused for a name that the index has, and for a second identifier. What is
added stands at the end, where the index has it. -/
theorem addField_cases (recordType : RecordType) (field : Field) :
    (field.name ∈ recordType.fields.map Field.name ∧
      recordType.addField field = .error (.duplicateField recordType.name field.name)) ∨
    (field.isIdentifier = true ∧ recordType.identifier?.isSome = true ∧
      recordType.addField field = .error (.multipleIdentifiers recordType.name)) ∨
    (field.name ∉ recordType.fields.map Field.name ∧
      ∃ extended, recordType.addField field = .ok extended ∧
        extended.name = recordType.name ∧
        extended.fields = recordType.fields ++ [field] ∧
        extended.index = recordType.index.insert field.name recordType.fields.length) := by
  unfold addField
  by_cases known : recordType.index.contains field.name = true
  · exact Or.inl ⟨contains_index_iff.mp known, dif_pos known⟩
  · rw [dif_neg known]
    by_cases second : (field.isIdentifier && recordType.identifier?.isSome) = true
    · obtain ⟨identifies, identified⟩ := Bool.and_eq_true_iff.mp second
      exact Or.inr (Or.inl ⟨identifies, identified, if_pos second⟩)
    · refine Or.inr (Or.inr ⟨mt contains_index_iff.mpr known, _, if_neg second, rfl, rfl, rfl⟩)

/-- A field that does not identify the records is added to declared ones whose names are others. -/
theorem addField_of_new
    (plain : field.isIdentifier = false)
    (new : field.name ∉ fields.map Field.name) :
    addField { name := name, fields := fields } field =
      .ok { name := name, fields := fields ++ [field] } := by
  let recordType : RecordType := { name := name, fields := fields }
  have unknown : ¬ recordType.index.contains field.name = true := mt contains_index_iff.mp new
  unfold addField
  rw [dif_neg unknown, plain]
  simp only [Bool.false_and, Bool.false_eq_true, if_false,
    ← Field.places_concat (Bool.not_eq_true _ ▸ unknown)]

/-- Fields that do not identify the records are all added, or the first of them whose name is
taken is refused. -/
theorem addFields_outcome
    {added : List Field}
    (plain : ∀ field ∈ added, field.isIdentifier = false)
    (name : String)
    (fields : List Field)
    (distinct : (fields.map Field.name).Nodup) :
    (((fields ++ added).map Field.name).Nodup ∧
      addFields { name := name, fields := fields } added =
        .ok { name := name, fields := fields ++ added }) ∨
    ∃ field, IsFirstRepeated ((fields ++ added).map Field.name) field ∧
      addFields { name := name, fields := fields } added =
        .error (.duplicateField name field) := by
  induction added generalizing fields with
  | nil => exact Or.inl ⟨by simpa using distinct, by simp [addFields, pure, Except.pure]⟩
  | cons field added inductionHypothesis =>
      have plainHere := plain field List.mem_cons_self
      by_cases taken : field.name ∈ fields.map Field.name
      · rcases addField_cases { name := name, fields := fields } field with
          ⟨-, refused⟩ | ⟨identifies, -, -⟩ | ⟨new, -⟩
        · refine Or.inr ⟨field.name, ?_, by simp [addFields, refused, bind, Except.bind]⟩
          exact ⟨fields.map Field.name, added.map Field.name, by simp, distinct, taken⟩
        · rw [plainHere] at identifies
          cases identifies
        · exact absurd taken new
      · have stillDistinct : ((fields ++ [field]).map Field.name).Nodup := by
          rw [List.map_append, List.map_singleton, ← List.concat_eq_append]
          exact distinct.concat taken
        have rest := inductionHypothesis
          (fun next member => plain next (List.mem_cons_of_mem field member))
          (fields ++ [field]) stillDistinct
        simpa [addFields, addField_of_new plainHere taken, bind, Except.bind] using rest

end RecordType

/-! ## Declared record types -/

namespace RecordTypeDeclaration

variable {declaration : RecordTypeDeclaration}

/-- The names that a record type declares: that of the identifier, those of the attributes and
those of the relations. -/
def names (declaration : RecordTypeDeclaration) : List String :=
  declaration.identifier ::
    (declaration.attributes ++ declaration.relations.entries.map Prod.fst)

/-- A name is declared for a field. -/
inductive Declares (declaration : RecordTypeDeclaration) : String -> Field -> Prop
  | identifier :
      Declares declaration declaration.identifier (Field.identifier declaration.identifier)
  | scalar
      {name : String}
      (listed : name ∈ declaration.attributes) :
      Declares declaration name (Field.scalar name)
  | relation
      {name : String}
      {relation : RelationDeclaration}
      (listed : (name, relation) ∈ declaration.relations.entries) :
      Declares declaration name
        (Field.relation name relation.target relation.kind relation.optional)

/-- The record type that a declaration describes. -/
def described (name : String) (declaration : RecordTypeDeclaration) : RecordType :=
  { name := name, fields := declaration.fields }

theorem map_name_fields : declaration.fields.map Field.name = declaration.names := by
  simp [fields, names, Field.identifier, Field.scalar, Field.relation, Function.comp_def]

theorem mem_fields_iff {name : String} {field : Field} :
    field ∈ declaration.fields ∧ field.name = name ↔ declaration.Declares name field := by
  constructor
  · rintro ⟨member, rfl⟩
    rcases List.mem_append.mp member with own | related
    · rcases List.mem_cons.mp own with rfl | scalar
      · exact .identifier
      · obtain ⟨name, listed, rfl⟩ := List.mem_map.mp scalar
        exact .scalar listed
    · obtain ⟨⟨name, relation⟩, listed, rfl⟩ := List.mem_map.mp related
      exact .relation listed
  · rintro (_ | listed | listed)
    · exact ⟨by simp [fields], rfl⟩
    · refine ⟨List.mem_append_left _ (List.mem_cons_of_mem _ ?_), rfl⟩
      exact List.mem_map_of_mem listed
    · exact ⟨List.mem_append_right _ (List.mem_map.mpr ⟨_, listed, rfl⟩), rfl⟩

/-- Only the first of the fields identifies the records. -/
theorem filter_isIdentifier_fields :
    declaration.fields.filter Field.isIdentifier = [Field.identifier declaration.identifier] := by
  have scalars : declaration.attributes.filter (Field.isIdentifier ∘ Field.scalar) = [] := by
    simp [Field.isIdentifier, Field.scalar]
  have relations : declaration.relations.entries.filter (Field.isIdentifier ∘ fun entry =>
      Field.relation entry.1 entry.2.target entry.2.kind entry.2.optional) = [] := by
    simp [Field.isIdentifier, Field.relation]
  simp [fields, List.filter_append, List.filter_map, scalars, relations, Field.identifier,
    Field.isIdentifier]

/-- A record type is built from distinct names, and else the first repeated one is refused. -/
theorem toRecordType_outcome (name : String) :
    (declaration.names.Nodup ∧ declaration.toRecordType name = .ok (declaration.described name)) ∨
    ∃ field, IsFirstRepeated declaration.names field ∧
      declaration.toRecordType name = .error (.duplicateField name field) := by
  have plain : ∀ field ∈ declaration.attributes.map Field.scalar ++
      declaration.relations.entries.map fun entry =>
        Field.relation entry.1 entry.2.target entry.2.kind entry.2.optional,
      field.isIdentifier = false := by
    intro field member
    rcases List.mem_append.mp member with scalar | related
    · obtain ⟨_, -, rfl⟩ := List.mem_map.mp scalar
      rfl
    · obtain ⟨_, -, rfl⟩ := List.mem_map.mp related
      rfl
  have rest := RecordType.addFields_outcome plain name
    [Field.identifier declaration.identifier] (by simp)
  have fieldsSplit : [Field.identifier declaration.identifier] ++
      (declaration.attributes.map Field.scalar ++
        declaration.relations.entries.map fun entry =>
          Field.relation entry.1 entry.2.target entry.2.kind entry.2.optional) =
      declaration.fields := rfl
  rw [fieldsSplit, map_name_fields] at rest
  exact rest

end RecordTypeDeclaration

/-! ## Declared schemas -/

namespace SchemaDeclaration

variable {declaration : SchemaDeclaration}

/-- No record type declares a name twice. -/
def Distinct (declaration : SchemaDeclaration) : Prop :=
  ∀ entry ∈ declaration.recordTypes.entries, entry.2.names.Nodup

/-- Every relation of a record type leads to a declared one. -/
def ConnectsRecordType
    (declaration : SchemaDeclaration)
    (recordType : RecordTypeDeclaration) : Prop :=
  ∀ entry ∈ recordType.relations.entries,
    (declaration.recordTypes.find? entry.2.target).isSome

/-- A declaration whose names are distinct in each record type, and whose relations lead to
declared record types. -/
structure WellFormed (declaration : SchemaDeclaration) : Prop where
  distinct : declaration.Distinct
  connected : ∀ entry ∈ declaration.recordTypes.entries, declaration.ConnectsRecordType entry.2

/-- What an error may report of a declaration: the first name that a record type declares twice,
and, where there is none, the first relation that leads to no declared record type. -/
inductive IsFault (declaration : SchemaDeclaration) : SchemaError -> Prop
  | duplicate
      {earlier later : List (String × RecordTypeDeclaration)}
      {name field : String}
      {recordType : RecordTypeDeclaration}
      (split : declaration.recordTypes.entries = earlier ++ (name, recordType) :: later)
      (distinct : ∀ entry ∈ earlier, entry.2.names.Nodup)
      (repeated : IsFirstRepeated recordType.names field) :
      IsFault declaration (.duplicateField name field)
  | dangling
      {earlier later : List (String × RecordTypeDeclaration)}
      {before after : List (String × RelationDeclaration)}
      {name field : String}
      {recordType : RecordTypeDeclaration}
      {relation : RelationDeclaration}
      (distinct : declaration.Distinct)
      (split : declaration.recordTypes.entries = earlier ++ (name, recordType) :: later)
      (connected : ∀ entry ∈ earlier, declaration.ConnectsRecordType entry.2)
      (relationSplit : recordType.relations.entries = before ++ (field, relation) :: after)
      (relationsConnected : ∀ entry ∈ before,
        (declaration.recordTypes.find? entry.2.target).isSome)
      (undeclared : declaration.recordTypes.find? relation.target = none) :
      IsFault declaration (.unknownRelationTarget name field relation.target)

/-- The schema of some declared record types. -/
def describedEntries (entries : List (String × RecordTypeDeclaration)) : Schema :=
  ⟨⟨entries.map fun (name, recordType) => (name, recordType.described name)⟩⟩

/-- The schema that a declaration describes. -/
def described (declaration : SchemaDeclaration) : Schema :=
  describedEntries declaration.recordTypes.entries

theorem recordType?_described (name : String) :
    declaration.described.recordType? name =
      (declaration.recordTypes.find? name).map (RecordTypeDeclaration.described name) := by
  unfold Schema.recordType? NameMap.find? described describedEntries
  dsimp only
  induction declaration.recordTypes.entries with
  | nil => rfl
  | cons entry rest inductionHypothesis =>
      rw [List.map_cons, List.lookup_cons, List.lookup_cons, inductionHypothesis]
      cases same : name == entry.1 with
      | true => rw [eq_of_beq same]; rfl
      | false => rfl

/-! ## Building the record types -/

/-- One step of building the schema. -/
def addRecordType
    (schema : Schema)
    (entry : String × RecordTypeDeclaration) : Except SchemaError Schema :=
  match entry.2.toRecordType entry.1 with
  | .ok built => .ok (schema.insert built)
  | .error error => .error error

theorem toUncheckedSchema_eq :
    declaration.toUncheckedSchema = declaration.recordTypes.entries.foldlM addRecordType {} := rfl

/-- Record types in the order of their names are all added, or the first of them that repeats a
name is refused. -/
theorem addRecordTypes_outcome
    (built rest : List (String × RecordTypeDeclaration))
    (ordered : (built ++ rest).Pairwise fun entry later => entry.1 < later.1) :
    ((∀ entry ∈ rest, entry.2.names.Nodup) ∧
      rest.foldlM addRecordType (describedEntries built) =
        .ok (describedEntries (built ++ rest))) ∨
    ∃ earlier name recordType later field, rest = earlier ++ (name, recordType) :: later ∧
      (∀ entry ∈ earlier, entry.2.names.Nodup) ∧ IsFirstRepeated recordType.names field ∧
      rest.foldlM addRecordType (describedEntries built) =
        .error (.duplicateField name field) := by
  induction rest generalizing built with
  | nil => exact Or.inl ⟨by simp, by simp [pure, Except.pure]⟩
  | cons entry rest inductionHypothesis =>
      obtain ⟨name, recordType⟩ := entry
      rcases recordType.toRecordType_outcome name with ⟨distinct, done⟩ | ⟨field, repeated, refused⟩
      · have greater : ∀ entry ∈ (describedEntries built).recordTypes.entries, entry.1 < name := by
          intro entry member
          obtain ⟨declared, listed, rfl⟩ := List.mem_map.mp member
          exact (List.pairwise_append.mp ordered).2.2 declared listed _ List.mem_cons_self
        have added : addRecordType (describedEntries built) (name, recordType) =
            .ok (describedEntries (built ++ [(name, recordType)])) := by
          have inserted := NameMap.insert_of_greater greater (recordType.described name)
          have step : addRecordType (describedEntries built) (name, recordType) =
              .ok ((describedEntries built).insert (recordType.described name)) := by
            rw [addRecordType, done]
          rw [step, Schema.insert]
          change Except.ok (Schema.mk ((describedEntries built).recordTypes.insert name _)) = _
          rw [inserted]
          simp [describedEntries]
        rw [List.foldlM_cons, added]
        have restOrdered : ((built ++ [(name, recordType)]) ++ rest).Pairwise
            fun entry later => entry.1 < later.1 := by
          simpa using ordered
        rcases inductionHypothesis _ restOrdered with ⟨restDistinct, restDone⟩ |
          ⟨earlier, other, otherType, later, field, split, earlierDistinct, repeated, refused⟩
        · refine Or.inl ⟨List.forall_mem_cons.mpr ⟨distinct, restDistinct⟩, ?_⟩
          simpa [bind, Except.bind] using restDone
        · refine Or.inr ⟨(name, recordType) :: earlier, other, otherType, later, field, ?_,
            List.forall_mem_cons.mpr ⟨distinct, earlierDistinct⟩, repeated, refused⟩
          rw [split, List.cons_append]
      · refine Or.inr ⟨[], name, recordType, rest, field, rfl, by simp, repeated, ?_⟩
        rw [List.foldlM_cons, addRecordType, refused]
        rfl

/-- The record types of a declaration are all built where its names are distinct, and else the
first name that one of them repeats is refused. -/
theorem toUncheckedSchema_outcome (ordered : declaration.recordTypes.Ordered) :
    (declaration.Distinct ∧ declaration.toUncheckedSchema = .ok declaration.described) ∨
    ∃ name field, ¬ declaration.Distinct ∧ declaration.IsFault (.duplicateField name field) ∧
      declaration.toUncheckedSchema = .error (.duplicateField name field) := by
  rw [toUncheckedSchema_eq]
  rcases addRecordTypes_outcome [] _ ordered with done |
    ⟨earlier, name, recordType, later, field, split, distinct, repeated, refused⟩
  · exact Or.inl done
  · refine Or.inr ⟨name, field, ?_, .duplicate split distinct repeated, refused⟩
    intro contrary
    exact repeated.not_nodup (contrary (name, recordType) (by simp [split]))

/-! ## Checking the relations -/

/-- The relations of a described schema are those of its declaration, in the same order. -/
theorem danglingRelation?_described :
    declaration.described.danglingRelation? =
      declaration.recordTypes.entries.findSome? fun (name, recordType) =>
        recordType.relations.entries.findSome? fun (field, relation) =>
          if (declaration.recordTypes.find? relation.target).isSome then none
          else some (name, field, relation.target) := by
  have contains (target : String) : declaration.described.recordTypes.contains target =
      (declaration.recordTypes.find? target).isSome := by
    change (declaration.described.recordType? target).isSome = _
    rw [recordType?_described, Option.isSome_map]
  -- The identifier and the attributes come before the relations and lead nowhere.
  have scalars (attributes : List String) :
      attributes.findSome? (fun _ => (none : Option (String × String × String))) = none := by
    rw [List.findSome?_eq_none_iff]
    exact fun _ _ => rfl
  unfold Schema.danglingRelation?
  simp only [contains]
  unfold described describedEntries
  simp [List.findSome?_map, Function.comp_def, RecordTypeDeclaration.described, scalars,
    RecordTypeDeclaration.fields, Field.target?, Field.identifier, Field.scalar, Field.relation]

theorem isSome_of_ite_eq_none
    {α β : Type}
    {found : Option α}
    {value : β}
    (nothing : (if found.isSome then none else some value) = none) :
    found.isSome := by
  by_contra contrary
  rw [if_neg contrary] at nothing
  cases nothing

/-- A described schema is valid where every relation is connected, and else its first relation that
is not connected is refused. -/
theorem validate_outcome (distinct : declaration.Distinct) :
    (declaration.WellFormed ∧ declaration.described.validate = .ok ()) ∨
    ∃ error, ¬ declaration.WellFormed ∧ declaration.IsFault error ∧
      declaration.described.validate = .error error := by
  unfold Schema.validate
  rw [danglingRelation?_described]
  cases found : (declaration.recordTypes.entries.findSome? fun (name, recordType) =>
      recordType.relations.entries.findSome? fun (field, relation) =>
        if (declaration.recordTypes.find? relation.target).isSome then none
        else some (name, field, relation.target)) with
  | none =>
      refine Or.inl ⟨⟨distinct, ?_⟩, rfl⟩
      intro entry member relation listed
      have connected := List.findSome?_eq_none_iff.mp found entry member
      exact isSome_of_ite_eq_none (List.findSome?_eq_none_iff.mp connected relation listed)
  | some dangling =>
      obtain ⟨earlier, ⟨name, recordType⟩, later, split, first, connected⟩ :=
        List.findSome?_eq_some_iff.mp found
      obtain ⟨before, ⟨field, relation⟩, after, relationSplit, leads, relationsConnected⟩ :=
        List.findSome?_eq_some_iff.mp first
      have undeclared : declaration.recordTypes.find? relation.target = none := by
        simpa using Option.isSome_of_eq_some leads
      have reported : dangling = (name, field, relation.target) := by
        simpa [undeclared] using leads.symm
      subst reported
      refine Or.inr ⟨.unknownRelationTarget name field relation.target, ?_, ?_, rfl⟩
      · intro contrary
        have declared := contrary.connected (name, recordType) (by simp [split])
          (field, relation) (by simp [relationSplit])
        simp [undeclared] at declared
      · refine .dangling distinct split ?_ relationSplit ?_ undeclared
        · intro entry member other listed
          have entryConnected := List.findSome?_eq_none_iff.mp (connected entry member)
          exact isSome_of_ite_eq_none (entryConnected other listed)
        · exact fun other listed => isSome_of_ite_eq_none (relationsConnected other listed)

/-- Building a schema succeeds for a well-formed declaration, and else reports what is wrong with
it. -/
theorem toSchema_outcome (ordered : declaration.recordTypes.Ordered) :
    (declaration.WellFormed ∧ declaration.toSchema = .ok declaration.described) ∨
    ∃ error, ¬ declaration.WellFormed ∧ declaration.IsFault error ∧
      declaration.toSchema = .error error := by
  unfold toSchema
  rcases toUncheckedSchema_outcome ordered with ⟨distinct, built⟩ |
    ⟨name, field, repeats, fault, refused⟩
  · rcases validate_outcome distinct with ⟨wellFormed, valid⟩ |
      ⟨error, notWellFormed, fault, refused⟩
    · refine Or.inl ⟨wellFormed, ?_⟩
      simp [built, valid, bind, Except.bind, pure, Except.pure]
    · refine Or.inr ⟨error, notWellFormed, fault, ?_⟩
      simp [built, refused, bind, Except.bind]
  · refine Or.inr ⟨_, fun contrary => repeats contrary.distinct, fault, ?_⟩
    simp [refused, bind, Except.bind]

end SchemaDeclaration

/-! ## The schema that is built -/

/-- A record type that has exactly the fields of its declaration, each under its name. -/
structure RecordType.Presents
    (recordType : RecordType)
    (declaration : RecordTypeDeclaration) : Prop where
  /-- The fields stand in the order of the declaration. -/
  fields : recordType.fields = declaration.fields
  /-- The index leads from the name of every field to its place, and nowhere else. -/
  index : ∀ name place, recordType.index.find? name = some place ↔
    (recordType.fields[place]?).map Field.name = some name
  /-- The field that is found by a name is the one that was declared under it. -/
  field : ∀ name field, recordType.field? name = some field ↔ declaration.Declares name field
  /-- One field identifies the records, which is the declared one. -/
  identifier : recordType.fields.filter Field.isIdentifier =
    [Field.identifier declaration.identifier]
  identified : recordType.identifier? = some (Field.identifier declaration.identifier)
  /-- A relation to several records may be absent, and is never guaranteed to be present. -/
  collection : ∀ field ∈ recordType.fields, field.isCollection ->
    field.optional = true ∧ field.isGuaranteedPresent = false

/-- Distinct names make a record type that presents its declaration. -/
theorem RecordTypeDeclaration.presents_described
    {declaration : RecordTypeDeclaration}
    (name : String)
    (distinct : declaration.names.Nodup) :
    (declaration.described name).Presents declaration := by
  have namesDistinct : ((declaration.described name).fields.map Field.name).Nodup := by
    rwa [described, map_name_fields]
  exact {
    fields := rfl
    index := fun _ _ => RecordType.find?_index_eq_some_iff namesDistinct
    field := by
      intro fieldName field
      rw [RecordType.field?_eq_some_iff namesDistinct, described, mem_fields_iff]
    identifier := filter_isIdentifier_fields
    identified := by
      rw [RecordType.identifier?, ← List.head?_filter, described, filter_isIdentifier_fields]
      rfl
    collection := by
      intro field member several
      have declared : declaration.Declares field.name field := mem_fields_iff.mp ⟨member, rfl⟩
      generalize field.name = fieldName at declared
      cases declared with
      | identifier => cases several
      | scalar => cases several
      | relation listed =>
          have collects : RelationKind.isCollection _ = true := several
          refine ⟨by simp [Field.relation, collects], ?_⟩
          simp [Field.isGuaranteedPresent, Field.relation, collects] }

namespace SchemaDeclaration

/-- A declaration becomes a schema exactly when it is well formed. Otherwise the error reports a
name that is declared twice if there is one, and else a relation that leads nowhere. The schema has
the declared record types, and each of them has, under every name, the field declared under it, at
the place that its index has for the name. -/
theorem toSchema_iff_wellFormed
    (declaration : SchemaDeclaration)
    (ordered : declaration.recordTypes.Ordered) :
    ((∃ schema, declaration.toSchema = .ok schema) ↔ declaration.WellFormed) ∧
    (∀ error, declaration.toSchema = .error error -> declaration.IsFault error) ∧
    (¬ declaration.Distinct ->
      ∃ name field, declaration.toSchema = .error (.duplicateField name field)) ∧
    (∀ name, declaration.toSchema ≠ .error (.multipleIdentifiers name)) ∧
    ∀ schema, declaration.toSchema = .ok schema -> ∀ name,
      Option.Rel (fun recordType declared => recordType.name = name ∧ recordType.Presents declared)
        (schema.recordType? name) (declaration.recordTypes.find? name) := by
  rcases toSchema_outcome ordered with ⟨wellFormed, built⟩ | ⟨error, malformed, fault, refused⟩
  · rw [built]
    refine ⟨⟨fun _ => wellFormed, fun _ => ⟨_, rfl⟩⟩, ?_, ?_, ?_, ?_⟩
    · rintro _ ⟨⟩
    · exact fun repeats => absurd wellFormed.distinct repeats
    · rintro _ ⟨⟩
    · rintro _ ⟨⟩ name
      rw [recordType?_described]
      cases found : declaration.recordTypes.find? name with
      | none => exact .none
      | some declared =>
          have listed := ordered.find?_eq_some_iff.mp found
          exact .some ⟨rfl, declared.presents_described name (wellFormed.distinct _ listed)⟩
  · rw [refused]
    refine ⟨⟨?_, fun wellFormed => absurd wellFormed malformed⟩, ?_, ?_, ?_, ?_⟩
    · rintro ⟨_, ⟨⟩⟩
    · rintro _ ⟨⟩
      exact fault
    · intro repeats
      cases fault with
      | duplicate => exact ⟨_, _, rfl⟩
      | dangling distinct => exact absurd distinct repeats
    · rintro name ⟨⟩
      cases fault
    · rintro _ ⟨⟩

/-- Teams have members, and each member has one team. -/
def memberships : SchemaDeclaration where
  recordTypes := ⟨[
    ("Member", {
      identifier := "id"
      attributes := ["name"]
      relations := ⟨[("team", { target := "Team", kind := .manyToOne, optional := false })]⟩ }),
    ("Team", {
      identifier := "id"
      relations := ⟨[
        ("members", { target := "Member", kind := .oneToMany, optional := false })]⟩ })]⟩

/-- Teams and members make a schema, in which the members of a team are found by their name. -/
theorem memberships_toSchema :
    memberships.recordTypes.Ordered ∧ memberships.WellFormed ∧
    ∀ schema, memberships.toSchema = .ok schema ->
      ∃ recordType, schema.recordType? "Team" = some recordType ∧
        recordType.field? "members" = some ⟨"members", .relation "Member" .oneToMany, true⟩ := by
  have ordered : memberships.recordTypes.Ordered := by
    unfold NameMap.Ordered
    decide
  have accepts := toSchema_iff_wellFormed memberships ordered
  refine ⟨ordered, accepts.1.mp ⟨_, rfl⟩, ?_⟩
  intro schema built
  have presented := accepts.2.2.2.2 schema built "Team"
  cases found : schema.recordType? "Team" with
  | none =>
      rw [found] at presented
      cases presented
  | some recordType =>
      rw [found] at presented
      cases presented with
      | some presents =>
          refine ⟨recordType, rfl, (presents.2.field _ _).mpr ?_⟩
          exact @RecordTypeDeclaration.Declares.relation _ "members" ⟨"Member", .oneToMany, false⟩
            List.mem_cons_self

end SchemaDeclaration
end QueryGraph
