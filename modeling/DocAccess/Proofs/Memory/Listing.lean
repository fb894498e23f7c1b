import DocAccess.Proofs.Contents
import DocAccess.Proofs.Memory.Integrity
import Mathlib.Data.List.Basic

/-!
# Listings of the store in memory

A listing answers from the rows of its scope, and changes nothing.
-/

set_option autoImplicit false

namespace DocAccess.MemoryStore

variable {store : MemoryStore} {levels : List PermissionLevel} {filter : LevelFilter}

private theorem permissionsOn_eq (read : LevelFilter.ofList levels = .ok filter) (id : DocumentId) :
    store.permissionsOn id filter = (Scope.document id).listed levels store.contents := by
  rw [Scope.listed_document]
  refine List.filter_congr fun row _ => ?_
  rw [LevelFilter.contains_of_ofList read]

private theorem documentsOf_eq (intact : store.Integrity)
    (read : LevelFilter.ofList levels = .ok filter) (id : PrincipalId) :
    store.documentsOf id filter = (Scope.principal id).listed levels store.contents := by
  rw [Scope.listed_principal]
  simp only [documentsOf, contents, List.filterMap_map]
  refine List.filterMap_congr ?_
  rintro ⟨key, permission⟩ member
  have held := Std.ExtTreeMap.mem_toList_iff_getElem?_eq_some.1 member
  obtain rfl := intact.permission_key key permission held
  simp only [Function.comp_apply, Map.find?_values intact.document_id,
    LevelFilter.contains_of_ofList read]
  rfl

theorem missing?_eq (intact : store.Integrity) (id : DocumentId) :
    (Scope.document id).missing? store.contents =
      if store.documents.contains id then none else some (.documentNotFound id) := by
  rw [Scope.missing?]
  simp only [contents, Map.any_values intact.document_id]

theorem step_list {α : Type} (intact : store.Integrity) (live : store.poisoned = false)
    (scope : Scope α) (listing : Listing) (moment : Moment) :
    store.step moment (scope.list listing) =
      (scope.answer store.contents listing listing.cursor, store) := by
  cases scope with
  | document id =>
      simp only [step, Scope.list, Scope.answer]
      cases valid : listing.validate with
      | error failure => rfl
      | ok checked =>
          obtain ⟨read, room⟩ := Listing.validate_ok_iff.1 valid
          simp only [locked, live, Bool.false_eq_true, if_false, answer, listPermissions,
            missing?_eq intact]
          cases store.documents.contains id with
          | false => rfl
          | true =>
              simp only [if_true, permissionsOn_eq read]
              rw [Scope.page, ← room]
              rfl
  | principal id =>
      simp only [step, Scope.list, Scope.answer, Scope.missing?]
      cases valid : listing.validate with
      | error failure => rfl
      | ok checked =>
          obtain ⟨read, room⟩ := Listing.validate_ok_iff.1 valid
          simp only [locked, live, Bool.false_eq_true, if_false, answer, documentsOf_eq intact read]
          rw [Scope.page, ← room]
          rfl

/-- A poisoned lock is seen before anything is listed. -/
theorem list_ne_ok {α : Type} (poisoned : store.poisoned = true) (scope : Scope α)
    (listing : Listing) (moment : Moment) (page : Page α) :
    (store.step moment (scope.list listing)).1 ≠ .ok page := by
  cases scope with
  | document id =>
      simp only [step, Scope.list]
      cases listing.validate with
      | error failure => simp
      | ok checked => simp [locked, poisoned]
  | principal id =>
      simp only [step, Scope.list]
      cases listing.validate with
      | error failure => simp
      | ok checked => simp [locked, poisoned]

end DocAccess.MemoryStore
