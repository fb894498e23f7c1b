import DocAccess.Cursor
import DocAccess.Json.Printer
import DocAccess.Json.Reader
import DocAccess.Time.Rfc3339

/-!
# Records as JSON

The form in which records are exchanged. A record is written as an object with
its fields in a fixed order; it is read from an object with its fields in any
order, or from an array with exactly its fields in the fixed order. In an
object, fields that the record does not have are skipped, an absent optional
field is none, and a repeated field is refused.

A case without content is written as its name; it is also read from an object
whose only member has that name and is null.

The form of a record is given by that of its times. With civil times a record
may name a leap second; with points in time it is refused there.
-/

set_option autoImplicit false

namespace DocAccess

/-- Values with a JSON form. -/
class JsonForm (α : Type) where
  toJson : α → Json
  ofJson? : Json → Option α

namespace JsonForm

def write {α : Type} [JsonForm α] (value : α) : String :=
  (toJson value).render

/-- The value that a whole text spells. -/
def read? {α : Type} [JsonForm α] (source : String) : Option α :=
  (Json.parse? source).bind ofJson?

end JsonForm

namespace Json

/-- The values of the named fields, in the order of the names; a field that an
object lacks has none. -/
def fields? (names : List String) : Json → Option (List (Option Json))
  | .object members =>
      if members.all fun entry => entry.1.isSome then
        names.mapM fun name =>
          match members.filter fun entry => entry.1 = some name with
          | [] => some none
          | [(_, value)] => some (some value)
          | _ => none
      else none
  | .array items => if items.length = names.length then some (items.map some) else none
  | _ => none

/-- The value of a field that must be there. -/
def required? {α : Type} [JsonForm α] (field : Option Json) : Option α :=
  field.bind JsonForm.ofJson?

/-- The value of a field that may be absent or null. -/
def optional? {α : Type} [JsonForm α] : Option Json → Option (Option α)
  | none => some none
  | some .null => some none
  | some value => (JsonForm.ofJson? value).map some

/-- The name of a case without content. -/
def caseName? : Json → Option String
  | .text content => content
  | .object [(name, .null)] => name
  | _ => none

/-- The case, among all of a type, that a value names. -/
def caseOf? {α : Type} (cases : List α) (name : α → String) (value : Json) : Option α :=
  (caseName? value).bind fun given => cases.find? fun candidate => name candidate = given

end Json

instance : JsonForm String where
  toJson := .str
  ofJson? := Json.str?

instance : JsonForm Uuid where
  toJson id := .str id.text
  ofJson? value := value.str?.bind Uuid.ofText?

instance {kind : IdKind} : JsonForm (Id kind) where
  toJson id := .str id.text
  ofJson? value := value.str?.bind Id.ofText?

instance : JsonForm CivilTime where
  toJson time := .str (Rfc3339.text time)
  ofJson? value := value.str?.bind Rfc3339.ofText?

/-- A point in time has the form of its civil time. -/
instance : JsonForm Timestamp where
  toJson time := JsonForm.toJson time.civil
  ofJson? value := (JsonForm.ofJson? value).bind CivilTime.timestamp?

instance : JsonForm PermissionLevel where
  toJson level := .str level.name
  ofJson? := Json.caseOf? PermissionLevel.all PermissionLevel.name

instance : JsonForm RecipientType where
  toJson recipient := .str recipient.name
  ofJson? := Json.caseOf? RecipientType.all RecipientType.name

instance : JsonForm SortField where
  toJson field := .str field.name
  ofJson? := Json.caseOf? [.createdAt, .lastModifiedAt] SortField.name

/-- A principal is an object whose only member names its type. -/
instance : JsonForm Principal where
  toJson
    | .user id => .record [("User", JsonForm.toJson id)]
    | .guest id => .record [("Guest", JsonForm.toJson id)]
  ofJson?
    | .object [(some "User", value)] => (JsonForm.ofJson? value).map .user
    | .object [(some "Guest", value)] => (JsonForm.ofJson? value).map .guest
    | _ => none

/-- A value that may be absent is written as null when it is. -/
def optionalJson {α : Type} [JsonForm α] : Option α → Json
  | some value => JsonForm.toJson value
  | none => .null

instance {Time : Type} [JsonForm Time] : JsonForm (Document Time) where
  toJson document := .record [
    ("id", JsonForm.toJson document.id),
    ("name", optionalJson document.name),
    ("description", optionalJson document.description),
    ("created_at", JsonForm.toJson document.createdAt),
    ("last_modified_at", JsonForm.toJson document.lastModifiedAt)]
  ofJson? value := do
    match ← value.fields? ["id", "name", "description", "created_at", "last_modified_at"] with
    | [id, name, description, createdAt, lastModifiedAt] =>
        return {
          id := ← Json.required? id
          name := ← Json.optional? name
          description := ← Json.optional? description
          createdAt := ← Json.required? createdAt
          lastModifiedAt := ← Json.required? lastModifiedAt }
    | _ => none

instance {Time : Type} [JsonForm Time] : JsonForm (DocumentPermission Time) where
  toJson row := .record [
    ("document", JsonForm.toJson row.document),
    ("level", JsonForm.toJson row.level)]
  ofJson? value := do
    match ← value.fields? ["document", "level"] with
    | [document, level] =>
        return { document := ← Json.required? document, level := ← Json.required? level }
    | _ => none

instance {Time : Type} [JsonForm Time] : JsonForm (Permission Time) where
  toJson row := .record [
    ("document_id", JsonForm.toJson row.documentId),
    ("recipient_id", JsonForm.toJson row.recipientId),
    ("recipient_type", JsonForm.toJson row.recipientType),
    ("level", JsonForm.toJson row.level),
    ("created_by", JsonForm.toJson row.createdBy),
    ("created_at", JsonForm.toJson row.createdAt),
    ("last_modified_at", JsonForm.toJson row.lastModifiedAt)]
  ofJson? value := do
    match ← value.fields? ["document_id", "recipient_id", "recipient_type", "level", "created_by",
        "created_at", "last_modified_at"] with
    | [documentId, recipientId, recipientType, level, createdBy, createdAt, lastModifiedAt] =>
        return {
          documentId := ← Json.required? documentId
          recipientId := ← Json.required? recipientId
          recipientType := ← Json.required? recipientType
          level := ← Json.required? level
          createdBy := ← Json.required? createdBy
          createdAt := ← Json.required? createdAt
          lastModifiedAt := ← Json.required? lastModifiedAt }
    | _ => none

instance {Time : Type} [JsonForm Time] : JsonForm (Guest Time) where
  toJson guest := .record [
    ("id", JsonForm.toJson guest.id),
    ("document_id", JsonForm.toJson guest.documentId),
    ("created_by", JsonForm.toJson guest.createdBy),
    ("created_at", JsonForm.toJson guest.createdAt)]
  ofJson? value := do
    match ← value.fields? ["id", "document_id", "created_by", "created_at"] with
    | [id, documentId, createdBy, createdAt] =>
        return {
          id := ← Json.required? id
          documentId := ← Json.required? documentId
          createdBy := ← Json.required? createdBy
          createdAt := ← Json.required? createdAt }
    | _ => none

instance : JsonForm DocumentFields where
  toJson fields := .record [
    ("name", optionalJson fields.name),
    ("description", optionalJson fields.description)]
  ofJson? value := do
    match ← value.fields? ["name", "description"] with
    | [name, description] =>
        return { name := ← Json.optional? name, description := ← Json.optional? description }
    | _ => none

instance {Time : Type} [JsonForm Time] : JsonForm (Cursor Time) where
  toJson cursor := .record [
    ("sort_field", JsonForm.toJson cursor.sortField),
    ("last_seen_time", JsonForm.toJson cursor.lastSeenTime),
    ("last_seen_id", JsonForm.toJson cursor.lastSeenId)]
  ofJson? value := do
    match ← value.fields? ["sort_field", "last_seen_time", "last_seen_id"] with
    | [sortField, lastSeenTime, lastSeenId] =>
        return {
          sortField := ← Json.required? sortField
          lastSeenTime := ← Json.required? lastSeenTime
          lastSeenId := ← Json.required? lastSeenId }
    | _ => none

end DocAccess
