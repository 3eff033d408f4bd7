import ExportVolumes.Json
import ExportVolumes.Time.Instant

namespace ExportVolumes

/-!
Facts about volumes that provisioning and deletion publish, and their JSON form: an object
tagged by `type`, with the fields of the fact and its time.
-/

/-- A fact about one volume. -/
inductive Event where
  | volumeProvisioned (volumeName claim namespaceName serverPath : String)
      (mode user group : UInt32)
  /-- An owner annotation was unusable and the default was taken. -/
  | ownershipFallback (volumeName annotation value reason : String)
  | volumeDeleted (volumeName serverPath : String)
  | volumeRetained (volumeName serverPath : String)
  | volumeArchived (volumeName serverPath archivePath : String)
  /-- The directory was gone before its deletion began. -/
  | deletionSkipped (volumeName localPath : String)
  deriving DecidableEq, Repr

/-- A fact and when it came about. -/
structure Occurrence where
  event : Event
  time : Instant
  deriving DecidableEq, Repr

namespace Event

/-- The volume that a fact is about. -/
def volumeName : Event → String
  | volumeProvisioned name .. | ownershipFallback name .. | volumeDeleted name ..
  | volumeRetained name .. | volumeArchived name .. | deletionSkipped name .. => name

/-- The kind of a fact, as its JSON form names it. -/
def kind : Event → String
  | volumeProvisioned .. => "volume_provisioned"
  | ownershipFallback .. => "ownership_fallback"
  | volumeDeleted .. => "volume_deleted"
  | volumeRetained .. => "volume_retained"
  | volumeArchived .. => "volume_archived"
  | deletionSkipped .. => "deletion_skipped"

/-- The name of the time of a fact. -/
def timeField : Event → String
  | volumeProvisioned .. => "provisioned_at"
  | ownershipFallback .. => "occurred_at"
  | volumeDeleted .. => "deleted_at"
  | volumeRetained .. => "retained_at"
  | volumeArchived .. => "archived_at"
  | deletionSkipped .. => "skipped_at"

/-- The fields of a fact without its kind and time. -/
def fields : Event → List (String × Json)
  | volumeProvisioned name claim namespaceName serverPath mode user group =>
      [("volume_name", .text name), ("claim", .text claim), ("namespace", .text namespaceName),
       ("server_path", .text serverPath), ("mode", .nat mode.toNat), ("uid", .nat user.toNat),
       ("gid", .nat group.toNat)]
  | ownershipFallback name annotation value reason =>
      [("volume_name", .text name), ("annotation", .text annotation), ("value", .text value),
       ("reason", .text reason)]
  | volumeDeleted name serverPath | volumeRetained name serverPath =>
      [("volume_name", .text name), ("server_path", .text serverPath)]
  | volumeArchived name serverPath archivePath =>
      [("volume_name", .text name), ("server_path", .text serverPath),
       ("archive_path", .text archivePath)]
  | deletionSkipped name localPath =>
      [("volume_name", .text name), ("local_path", .text localPath)]

/-- The JSON form of a fact without its time. -/
def toJson (event : Event) : Json :=
  .object (("type", .text event.kind) :: event.fields)

end Event

namespace Occurrence

/-- The JSON form of a fact with its time. -/
def toJson (occurrence : Occurrence) : Json :=
  .object <|
    ("type", .text occurrence.event.kind) ::
      (occurrence.event.fields ++ [(occurrence.event.timeField, .text occurrence.time.text)])

/-- The reader of one kind of fact from its fields. -/
structure KindReader where
  fieldNames : List String
  read : List (String × Json) → Option Event

/-- A field that holds a text. -/
def text? (fields : List (String × Json)) (name : String) : Option String :=
  DataFormat.required? fields name Json.text?

/-- A field that holds a number of 32 bits. -/
def word? (fields : List (String × Json)) (name : String) : Option UInt32 :=
  DataFormat.required? fields name Json.word32?

/-- The fields of a kind and the fact that they make up. -/
def ofFields? (kind : String) : Option KindReader :=
  match kind with
  | "volume_provisioned" => some
      { fieldNames := ["volume_name", "claim", "namespace", "server_path", "mode", "uid", "gid",
          "provisioned_at"]
        read := fun fields => do
          return .volumeProvisioned (← text? fields "volume_name") (← text? fields "claim")
            (← text? fields "namespace") (← text? fields "server_path") (← word? fields "mode")
            (← word? fields "uid") (← word? fields "gid") }
  | "ownership_fallback" => some
      { fieldNames := ["volume_name", "annotation", "value", "reason", "occurred_at"]
        read := fun fields => do
          return .ownershipFallback (← text? fields "volume_name") (← text? fields "annotation")
            (← text? fields "value") (← text? fields "reason") }
  | "volume_deleted" => some
      { fieldNames := ["volume_name", "server_path", "deleted_at"]
        read := fun fields => do
          return .volumeDeleted (← text? fields "volume_name") (← text? fields "server_path") }
  | "volume_retained" => some
      { fieldNames := ["volume_name", "server_path", "retained_at"]
        read := fun fields => do
          return .volumeRetained (← text? fields "volume_name") (← text? fields "server_path") }
  | "volume_archived" => some
      { fieldNames := ["volume_name", "server_path", "archive_path", "archived_at"]
        read := fun fields => do
          return .volumeArchived (← text? fields "volume_name") (← text? fields "server_path")
            (← text? fields "archive_path") }
  | "deletion_skipped" => some
      { fieldNames := ["volume_name", "local_path", "skipped_at"]
        read := fun fields => do
          return .deletionSkipped (← text? fields "volume_name") (← text? fields "local_path") }
  | _ => none

/-- The kind of a JSON form and what is left of it: an object without its tag, or a list
without its first item. -/
def split? : Json → Option (String × Json)
  | .object fields => do
      let kind ← DataFormat.required? fields "type" Json.text?
      return (kind, .object (fields.filter (·.1 ≠ "type")))
  | .list (.text kind :: items) => some (kind, .list items)
  | _ => none

/-- Read a fact with its time.  Fields that its kind does not have are ignored. -/
def ofJson? (value : Json) : Option Occurrence := do
  let (kind, body) ← split? value
  let reader ← ofFields? kind
  let fields ← Json.format.fields? reader.fieldNames body
  let event ← reader.read fields
  let time ← (← text? fields event.timeField) |> Instant.ofText?
  return { event, time }

end Occurrence
end ExportVolumes
