import DocAccess.Relational.Database

/-!
# The tables of the store

Which tables the store uses. Identifiers are byte strings, times are whole
microseconds and enumerations are their texts. Every permission and every guest
refers to its document; who holds a permission is named by identifier alone.
-/

set_option autoImplicit false

namespace DocAccess.Schema

open Relational (Column TableSchema Database DatabaseError)

/-- A document that must exist. -/
def documentReference : Column where
  name := "document_id"
  required := true
  references := some ("documents", "id")

/-- A time that must be there. -/
def timeColumn (name : String) : Column where
  name := name
  affinity := .integer
  required := true

/-- Documents, by identifier. -/
def documents : TableSchema where
  name := "documents"
  columns := [
    { name := "id" },
    { name := "name", affinity := .text },
    { name := "description", affinity := .text },
    timeColumn "created_at",
    timeColumn "last_modified_at"]
  key := [0]

/-- Permissions, by recipient and document. -/
def permissions : TableSchema where
  name := "permissions"
  columns := [
    { name := "recipient_id", required := true },
    { name := "recipient_type", affinity := .text, required := true,
      allowed := some ["user", "guest"] },
    documentReference,
    { name := "permission_level", affinity := .text, required := true,
      allowed := some ["viewer", "editor", "owner"] },
    { name := "created_by", required := true },
    timeColumn "created_at",
    timeColumn "last_modified_at"]
  key := [0, 2]

/-- Guests, by identifier. -/
def guests : TableSchema where
  name := "guests"
  columns := [
    { name := "id" },
    documentReference,
    { name := "created_by", required := true },
    timeColumn "created_at"]
  key := [0]

/-- The versions of these definitions that have been put in place. -/
def migrations : TableSchema where
  name := "schema_migrations"
  columns := [
    { name := "version", affinity := .integer },
    timeColumn "applied_at"]
  key := [0]
  numbered := true

/-- The indexes, each with its table. -/
def indexes : List (String × String) := [
  ("idx_documents_created", "documents"),
  ("idx_documents_modified", "documents"),
  ("idx_permissions_doc_created", "permissions"),
  ("idx_permissions_doc_modified", "permissions"),
  ("idx_guests_document", "guests")]

/-- Puts the tables and indexes in place, none of which may be there already. -/
def create (database : Database) : Except DatabaseError Database := do
  let database ← database.createTable documents
  let database ← database.createTable permissions
  let database ← database.createTable guests
  indexes.foldlM (fun database (name, table) => database.createIndex name table) database

end DocAccess.Schema
