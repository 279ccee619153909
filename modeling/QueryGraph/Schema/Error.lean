import QueryGraph.Yaml.Complaint

/-!
# Schema errors

What can be wrong with a schema, or with a look-up in one.
-/

namespace QueryGraph

/-- What is wrong with a schema or a look-up in it. -/
inductive SchemaError
  | unknownRecordType (recordType : String)
  | unknownField
      (recordType : String)
      (field : String)
  | duplicateField
      (recordType : String)
      (field : String)
  | unknownRelationTarget
      (recordType : String)
      (field : String)
      (target : String)
  | multipleIdentifiers (recordType : String)
  /-- The file of the schema cannot be read. -/
  | missing
  /-- The text is not a schema. -/
  | unreadable (complaint : Yaml.Complaint)
  deriving DecidableEq, Repr

/-- The wording of a schema error. -/
def SchemaError.message : SchemaError -> String
  | .unknownRecordType recordType => "No record type \x60" ++ recordType ++ "\x60 in schema"
  | .unknownField recordType field =>
      "Record type \x60" ++ recordType ++ "\x60 has no field \x60" ++ field ++ "\x60"
  | .duplicateField recordType field =>
      "Record type \x60" ++ recordType ++ "\x60 declares field \x60" ++ field ++
        "\x60 more than once"
  | .unknownRelationTarget recordType field target =>
      "Relation \x60" ++ recordType ++ "." ++ field ++
        "\x60 targets unknown record type \x60" ++ target ++ "\x60"
  | .multipleIdentifiers recordType =>
      "Record type \x60" ++ recordType ++ "\x60 declares more than one identifier field"
  | .missing => "Failed to read schema file"
  | .unreadable complaint => "Failed to parse schema: " ++ complaint.message

end QueryGraph
