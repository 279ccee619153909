import QueryGraph.Schema.Declaration
import QueryGraph.Yaml.Node.OfTokens
import QueryGraph.Yaml.Resolve

/-!
# Schemas from text

In the text of a schema a scalar of any kind may stand where a name is wanted, and
is taken by its text. A name of the schema may be null. Of record types or
relations of the same name the last one counts.
-/

namespace QueryGraph

open Yaml

/-- What was read of a relation. -/
structure RelationDraft where
  target : Option String := none
  kind : Option RelationKind := none
  optional : Bool := true

/-- Reads a relation. -/
def RelationDeclaration.ofNode : Yaml.Node -> Reading RelationDeclaration :=
  Reading.record "struct RelationConfig"
    [("target", fun draft node => return { draft with target := ← Reading.text node }),
      ("kind", fun draft node => return { draft with
        kind := ← Reading.word (RelationKind.all.map fun kind => (kind.name, kind)) node }),
      ("optional", fun draft node => return { draft with optional := ← Reading.bool node })]
    ({} : RelationDraft)
    fun draft => return {
      target := ← Reading.required "target" draft.target
      kind := ← Reading.required "kind" draft.kind
      optional := draft.optional }

/-- Reads a map from names. -/
def NameMap.ofNode
    (read : Yaml.Node -> Reading α)
    (node : Yaml.Node) : Reading (NameMap α) :=
  NameMap.ofList <$> Reading.members (fun _ => read) node

/-- What was read of a record type. -/
structure RecordTypeDraft where
  identifier : Option String := none
  attributes : List String := []
  relations : NameMap RelationDeclaration := {}

/-- Reads a record type. -/
def RecordTypeDeclaration.ofNode : Yaml.Node -> Reading RecordTypeDeclaration :=
  Reading.record "struct RecordTypeConfig"
    [("id", fun draft node => return { draft with identifier := ← Reading.text node }),
      ("attributes", fun draft node => return { draft with
        attributes := ← Reading.items Reading.text node }),
      ("relations", fun draft node => return { draft with
        relations := ← NameMap.ofNode RelationDeclaration.ofNode node })]
    ({} : RecordTypeDraft)
    fun draft => return {
      identifier := ← Reading.required "id" draft.identifier
      attributes := draft.attributes
      relations := draft.relations }

/-- What was read of a schema. -/
structure SchemaDraft where
  name : Option String := none
  recordTypes : Option (NameMap RecordTypeDeclaration) := none

namespace SchemaDeclaration

/-- Reads a schema. -/
def ofNode : Yaml.Node -> Reading SchemaDeclaration :=
  Reading.record "struct SchemaConfig"
    [("name", fun draft node => return { draft with name := ← Reading.optionalText node }),
      ("record_types", fun draft node => return { draft with
        recordTypes := some (← NameMap.ofNode RecordTypeDeclaration.ofNode node) })]
    ({} : SchemaDraft)
    fun draft => return {
      name := draft.name
      recordTypes := ← Reading.required "record_types" draft.recordTypes }

/-- Reads the declaration of a schema from its text. -/
def ofText (text : String) : Except SchemaError SchemaDeclaration :=
  (Reading.run ofNode (Yaml.read text)).mapError .unreadable

end SchemaDeclaration

/-- Reads a schema from its text. -/
def Schema.ofText (text : String) : Except SchemaError Schema := do
  (← SchemaDeclaration.ofText text).toSchema

end QueryGraph
