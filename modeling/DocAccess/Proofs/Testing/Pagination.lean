import DocAccess.Proofs.Testing.Fixtures
import DocAccess.Testing.Conformance

/-!
# Checks of pagination on a session under way

Draining gives the documents that have been made, whatever their times and identifiers. A
document that is made after a page stays above the position where the page ended, if the
clock has moved on.
-/

set_option autoImplicit false

namespace DocAccess

variable {α : Type}

private theorem Testing.Conformance.isDescending_map {key : α → OrderKey} {rows : List α}
    (descends : Descending key rows) : isDescending (rows.map key) = true := by
  induction rows with
  | nil => rfl
  | cons first rest ih =>
      obtain ⟨above, descends⟩ := List.pairwise_cons.1 descends
      cases rest with
      | nil => rfl
      | cons second rest =>
          exact Bool.and_eq_true_iff.2 ⟨above second List.mem_cons_self, ih descends⟩

namespace Testing.Session.Underway

open MemoryStore

variable {kind : StoreKind} {session : Session kind.State} {gap : Int}

theorem owned_listed {owner : UserId} {made : List DocumentId} {maps : MemoryStore}
    {used : List Uuid} (intact : maps.Integrity)
    (grown : Grown empty [owner.uuid] .owner (fun name => ⟨.ofUser owner, ⟨name⟩⟩)
      (made.map Id.uuid) maps used) :
    (((Scope.principal (.ofUser owner)).listed PermissionLevel.all maps.contents).map
      (·.document.id)).Perm made := by
  have injective : Function.Injective fun name : Uuid =>
      (⟨.ofUser owner, ⟨name⟩⟩ : PermissionKey) := by
    rintro a b ⟨⟩
    rfl
  have given (name : Uuid) : (∃ level ∈ PermissionLevel.all,
      maps.level? ((Scope.principal (.ofUser owner)).keyOf name) = some level) ↔
        name ∈ made.map Id.uuid := by
    rw [Scope.keyOf, grown.level?_keyOf injective, level?_empty]
    by_cases member : name ∈ made.map Id.uuid
    · rw [if_pos member]
      exact iff_of_true ⟨.owner, PermissionLevel.owner.mem_all, rfl⟩ member
    · rw [if_neg member]
      exact iff_of_false (by simp) member
  have names := listed_perm intact grown.apart given
  refine (List.map_perm_map_iff fun a b => Id.eq_of_uuid).1 ?_
  rw [List.map_map]
  exact names

theorem documentsDrained {owner : UserId} {rows size : Nat}
    (underway : session.Underway gap empty [owner.uuid] rows rows) (positive : 0 < size)
    (sortField : SortField) :
    (Fixture.documents ⟨owner⟩ rows : Run kind.State (List DocumentId)).Yields session
      fun made after => ∃ listed : List DocumentPermission, listed.length = rows ∧
        (listed.map (·.document.id)).Perm made ∧ Descending (Keyed.orderKey sortField) listed ∧
          (drainDocuments (.ofUser owner) PermissionLevel.all sortField size after).1 =
            if rows ⌈/⌉ size < maxPages then .ok listed else .aborted := by
  have underway : session.Underway gap empty [owner.uuid] (0 + rows) (0 + rows) := by
    simpa using underway
  refine (underway.documents List.mem_cons_self).mono ?_
  rintro made after ⟨length, maps, used, grown, underway⟩
  obtain ⟨listed, perm, descends, ends⟩ := underway.drain_outcome (.principal (.ofUser owner)) rfl
    (List.cons_ne_nil _ _ : PermissionLevel.all ≠ []) positive sortField
  have same := (perm.map (·.document.id)).trans (owned_listed underway.intact grown)
  have count : listed.length = rows := by
    rw [← length, ← same.length_eq, List.length_map]
  rw [count] at ends
  exact ⟨listed, count, same, descends, ends⟩

theorem paginationIsComplete {rows size : Nat}
    (underway : session.Underway gap empty [] (rows + 1) rows) (positive : 0 < size)
    (few : rows ⌈/⌉ size < maxPages) (sortField : SortField) :
    (Conformance.paginationIsComplete rows size sortField : Run kind.State Unit).Yields session
      fun _ _ => True := by
  refine underway.newFixture.bind ?_
  rintro ⟨owner⟩ session ⟨-, underway⟩
  refine (underway.documentsDrained positive sortField).expect.bind ?_
  rintro made session ⟨listed, count, same, descends, ends⟩
  rw [if_pos few] at ends
  refine (Run.yields_of_outcome ends).expect.bind ?_
  rintro _ session rfl
  refine Run.yields_ensure_bind (decide_eq_true count) ?_
  refine Run.yields_ensure_bind (Bool.and_eq_true_iff.2 ⟨?_, ?_⟩) ?_
  · simpa using fun row member => same.subset (List.mem_map_of_mem member)
  · simpa using fun id member => same.symm.subset member
  exact Run.yields_ensure (Conformance.isDescending_map descends) trivial

theorem paginationIsComplete_aborts {rows size : Nat}
    (underway : session.Underway gap empty [] (rows + 1) rows) (positive : 0 < size)
    (many : maxPages ≤ rows ⌈/⌉ size) (sortField : SortField) :
    ((Conformance.paginationIsComplete rows size sortField : Run kind.State Unit) session).1 =
      .aborted := by
  refine underway.newFixture.aborts ?_
  rintro ⟨owner⟩ session ⟨-, underway⟩
  refine (underway.documentsDrained positive sortField).expect.aborts ?_
  rintro made session ⟨listed, -, -, -, ends⟩
  rw [if_neg (Nat.not_lt.2 many)] at ends
  exact Run.aborts_of_expect ends

/-! ## Rows that come later -/

/-- The rows that were there before a document was made are those of the other documents. -/
private theorem mem_listed_before {owner : UserId} {maps : MemoryStore} {used used' : List Uuid}
    {ids calls ids' calls' : Nat} {levels : List PermissionLevel} {late : DocumentId}
    {fields : DocumentFields} {now : Timestamp} {after : Session kind.State}
    (underway : session.Underway gap maps used ids calls) (new : late.uuid ∉ used)
    (onward : after.Underway gap (maps.addDocument owner (.ofFields late fields now) now) used' ids'
      calls') {row : DocumentPermission} :
    row ∈ (Scope.principal (.ofUser owner)).listed levels maps.contents ↔
      row ∈ (Scope.principal (.ofUser owner)).listed levels
          (maps.addDocument owner (.ofFields late fields now) now).contents ∧
        row.document.id ≠ late := by
  by_cases this : row.document.id = late
  · refine iff_of_false (fun listed => ?_) fun given => given.2 this
    exact new (this ▸ underway.rowId_mem listed)
  · have elsewhere : (⟨.ofUser owner, row.document.id⟩ : PermissionKey).document ≠
        (Document.ofFields late fields now).id := this
    rw [mem_listed_principal_iff underway.intact, mem_listed_principal_iff onward.intact,
      level?_addDocument_elsewhere _ _ _ _ _ elsewhere, document_addDocument,
      if_neg (Ne.symm elsewhere)]
    exact (and_iff_left this).symm

/-- What is made at a later time lies above every position that has been given. -/
private theorem ahead_perm_later {owner : UserId} {maps : MemoryStore} {used used' : List Uuid}
    {ids calls ids' calls' : Nat} {levels : List PermissionLevel}
    {items : List DocumentPermission} {late : DocumentId} {fields : DocumentFields}
    {now : Timestamp} {after : Session kind.State}
    (underway : session.Underway gap maps used ids calls) (cursor : Cursor)
    (new : late.uuid ∉ used)
    (onward : after.Underway gap (maps.addDocument owner (.ofFields late fields now) now) used' ids'
      calls')
    (past : ∀ time, maps.contents.HasTime time → time.nanos < now.nanos)
    (given : ∀ row ∈ items, row ∈ (Scope.principal (.ofUser owner)).listed levels maps.contents)
    (some : items ≠ []) :
    (kind.ahead (.principal (.ofUser owner)) levels
        (maps.addDocument owner (.ofFields late fields now) now).contents
        ((Scope.principal (.ofUser owner)).next cursor items)).Perm
      (kind.ahead (.principal (.ofUser owner)) levels maps.contents
        ((Scope.principal (.ofUser owner)).next cursor items)) := by
  obtain ⟨front, last, rfl, seen⟩ : ∃ front last, items = front ++ [last] ∧
      (kind.seen ((Scope.principal (.ofUser owner)).next cursor items)).key =
        (Scope.principal (.ofUser owner)).orderKey cursor.sortField last :=
    (kind.seen_next underway.whole given).resolve_left fun empty => some empty.1
  have stored := (Scope.stamped_of_mem (Scope.mem_rows_of_listed
    (given last (List.mem_append_right front List.mem_cons_self))) cursor.sortField).hasTime
  refine (List.perm_ext_iff_of_nodup (StoreKind.ids_ahead onward.intact.consistent).of_map
    (StoreKind.ids_ahead underway.intact.consistent).of_map).2 fun row => ?_
  rw [StoreKind.mem_ahead, StoreKind.mem_ahead, underway.mem_listed_before new onward,
    and_assoc, Scope.sortField_next]
  refine and_congr_right fun listed => (and_iff_right_of_imp fun admitted => ?_).symm
  rintro rfl
  obtain ⟨found, -, -⟩ := (mem_listed_principal_iff onward.intact).1 listed
  rw [document_addDocument, id_ofFields, if_pos rfl] at found
  have time : ((Scope.principal (.ofUser owner)).orderKey cursor.sortField row).time = now := by
    have made := (Option.some.inj found).symm
    cases cursor.sortField with
    | createdAt => exact congrArg (fun document : Document => document.createdAt) made
    | lastModifiedAt => exact congrArg (fun document : Document => document.lastModifiedAt) made
  have above := past _ stored
  rw [Cursor.admits, seen, OrderKey.before_iff, Timestamp.before_iff, time] at admitted
  rcases admitted with below | ⟨level, -⟩
  · omega
  · rw [level] at above
    omega

theorem paginationMissesForward (underway : session.Underway gap empty [] 6 7) (moves : 0 < gap) :
    (Conformance.paginationMissesForward : Run kind.State Unit).Yields session
      fun _ _ => True := by
  refine underway.newFixture.bind ?_
  rintro ⟨owner⟩ session ⟨-, underway⟩
  refine (underway.documents List.mem_cons_self).expect.bind ?_
  rintro made session ⟨length, maps, used, grown, underway⟩
  have same := owned_listed underway.intact grown
  refine (underway.beginning .createdAt).bind ?_
  rintro cursor session ⟨rfl, -, begins⟩
  obtain ⟨perm, -⟩ := underway.ahead_perm begins (.principal (.ofUser owner)) PermissionLevel.all
  have count : (kind.ahead (.principal (.ofUser owner)) PermissionLevel.all maps.contents
      cursor).length = 4 := by
    rw [perm.length_eq, ← length, ← same.length_eq, List.length_map]
  refine (underway.list (.principal (.ofUser owner)) rfl (by decide) (by decide)
    cursor).expect.bind ?_
  rintro first session ⟨rfl, underway⟩
  refine Run.yields_ensure_bind (decide_eq_true (by simp [count])) ?_
  refine (underway.createDocument (grown.kept List.mem_cons_self) _).expect.bind ?_
  rintro late session ⟨new, now, _, past, rfl, onward⟩
  have listed (row : DocumentPermission) (member : row ∈ (kind.ahead (.principal (.ofUser owner))
      PermissionLevel.all maps.contents cursor).take 2) :=
    (StoreKind.mem_ahead.1 (List.mem_of_mem_take member)).1
  have some : (kind.ahead (.principal (.ofUser owner)) PermissionLevel.all maps.contents
      cursor).take 2 ≠ [] := by
    rw [← List.length_pos_iff, List.length_take, count]
    decide
  have rest := underway.ahead_perm_later cursor new onward
    (fun time stored => by have := past time stored; omega) listed some
  rw [StoreKind.ahead_next underway.intact.consistent underway.whole some rfl] at rest
  refine (onward.list (.principal (.ofUser owner)) rfl (by decide) (by decide) _).expect.bind ?_
  rintro page session ⟨rfl, -⟩
  refine Run.yields_ensure_bind (decide_eq_true ?_) (Run.yields_ensure ?_ trivial)
  · rw [List.length_take, rest.length_eq, List.length_drop, count]
    rfl
  · rw [List.all_eq_true]
    intro row member
    have before := List.mem_of_mem_drop (rest.subset (List.mem_of_mem_take member))
    refine decide_eq_true fun same => new ?_
    rw [← same]
    exact underway.rowId_mem (StoreKind.mem_ahead.1 before).1

end Testing.Session.Underway
end DocAccess
