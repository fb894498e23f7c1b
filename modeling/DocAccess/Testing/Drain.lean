import DocAccess.Testing.Session

/-!
# Draining a listing

Following a listing from its beginning until a page is empty. A listing that has
not ended after a fixed number of pages is taken to have no end.
-/

set_option autoImplicit false

namespace DocAccess.Testing

variable {σ α : Type}

/-- The most pages that are fetched, the empty one included. -/
def maxPages : Nat := 1000

/-- The items of a listing from a cursor on. Breaks off if a page is longer than
asked for or if the pages do not suffice. -/
def drainFrom (fetch : Cursor → Run σ (Page α)) (pageSize : Nat) :
    (pages : Nat) → Cursor → Run σ (List α)
  | 0, _ => Run.abort
  | pages + 1, cursor => do
      let page ← fetch cursor
      if page.isEmpty then
        return []
      else
        Run.ensure (decide (page.items.length ≤ pageSize))
        let rest ← drainFrom fetch pageSize pages page.next
        return page.items ++ rest

variable [Store σ]

/-- All documents on which a principal has one of the levels. -/
def drainDocuments (principal : PrincipalId) (levels : List PermissionLevel)
    (sortField : SortField) (pageSize : Nat) : Run σ (List DocumentPermission) := do
  let cursor ← Run.beginning sortField
  drainFrom (fun cursor => Run.call (.listDocuments principal ⟨levels, cursor, pageSize⟩))
    pageSize maxPages cursor

/-- All permissions on a document with one of the levels. -/
def drainPermissions (document : DocumentId) (levels : List PermissionLevel)
    (sortField : SortField) (pageSize : Nat) : Run σ (List Permission) := do
  let cursor ← Run.beginning sortField
  drainFrom (fun cursor => Run.call (.listPermissions document ⟨levels, cursor, pageSize⟩))
    pageSize maxPages cursor

end DocAccess.Testing
