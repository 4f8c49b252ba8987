import KeySteward.Json.Basic
import KeySteward.Resource.Kind

/-! The definitions by which the kinds of resource are known to the Kubernetes API. -/

namespace KeySteward

/-- A column that listings of a kind print, with the path of its value. -/
structure PrinterColumn where
  name : String
  path : String
  deriving DecidableEq

def PrinterColumn.toJson (column : PrinterColumn) : Json :=
  .ofMembers [
    ("name", .string column.name),
    ("type", .string "string"),
    ("jsonPath", .string column.path)]

structure Definition where
  kind : Kind
  singular : String
  plural : String
  shortName : String
  columns : List PrinterColumn
  deriving DecidableEq

namespace Definition

def group : String := "kms.keyops.dev"

def version : String := "v1alpha1"

def ofKind : Kind → Definition
  | .key => {
      kind := .key, singular := "key", plural := "keys", shortName := "kmskey"
      columns := [⟨"KEY-ID", ".status.keyID"⟩, ⟨"STATE", ".status.keyState"⟩] }
  | .replicaKey => {
      kind := .replicaKey, singular := "replicakey", plural := "replicakeys"
      shortName := "kmsreplica", columns := [] }
  | .keyAlias => {
      kind := .keyAlias, singular := "alias", plural := "aliases", shortName := "kmsalias"
      columns := [] }
  | .grant => {
      kind := .grant, singular := "grant", plural := "grants", shortName := "kmsgrant"
      columns := [⟨"GRANT-ID", ".status.grantID"⟩] }

def name (definition : Definition) : String :=
  definition.plural ++ "." ++ group

/-- The path under the API of the objects of the kind in a namespace. -/
def collectionPath (definition : Definition) (namespaceName : String) : String :=
  "/apis/" ++ group ++ "/" ++ version ++ "/namespaces/" ++ namespaceName ++ "/" ++
    definition.plural

def toJson (definition : Definition) : Json :=
  .ofMembers [
    ("name", .string definition.name),
    ("group", .string group),
    ("scope", .string "Namespaced"),
    ("names", .ofMembers [
      ("kind", .string definition.kind.name),
      ("plural", .string definition.plural),
      ("singular", .string definition.singular),
      ("shortNames", .ofStrings [definition.shortName]),
      ("categories", .array [])]),
    ("version", .string version),
    ("columns", .array (definition.columns.map PrinterColumn.toJson)),
    ("subresources", .ofMembers [("status", .object [])])]

end Definition

end KeySteward
