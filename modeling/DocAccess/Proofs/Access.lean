import DocAccess.Proofs.Draining
import DocAccess.Proofs.Failure
import DocAccess.Proofs.Stepping

/-!
# Who may do what

The level of a principal on a document can be looked up, it is in the listing of the permissions
on the document, and it is in the listing of the documents of the principal. The three say the
same of every pair, whatever has been asked of a store.
-/

set_option autoImplicit false

namespace DocAccess

variable {α : Type}

/-- The rows that a listing gives, asked for page by page until a page is empty. -/
inductive Followed {σ : Type} [Store σ] (scope : Scope α) : σ → Listing → List α → Prop where
  | ended {store after : σ} {listing : Listing} {moment : Moment} {page : Page α}
      (answered : Store.step store moment (scope.list listing) = (.ok page, after))
      (empty : page.isEmpty = true) : Followed scope store listing []
  | onward {store after : σ} {listing : Listing} {moment : Moment} {page : Page α} {rows : List α}
      (answered : Store.step store moment (scope.list listing) = (.ok page, after))
      (more : page.isEmpty = false)
      (rest : Followed scope after { listing with cursor := page.next } rows) :
      Followed scope store listing (page.items ++ rows)

/-- All times that are stored. -/
def Contents.times (contents : Contents) : List Timestamp :=
  (contents.documents.flatMap fun document => [document.createdAt, document.lastModifiedAt]) ++
    (contents.permissions.flatMap fun row => [row.createdAt, row.lastModifiedAt]) ++
      contents.guests.map (·.createdAt)

/-- A listing that takes in a level and starts later than all that is stored. -/
structure Listing.Spans (listing : Listing) (kind : StoreKind) (contents : Contents)
    (level : PermissionLevel) : Prop where
  chosen : level ∈ listing.levels
  positive : 0 < listing.pageSize
  later : ∀ time ∈ contents.times, time.before (kind.seen listing.cursor).lastSeenTime = true

/-- Whether a principal holds a level on a document. -/
def Contents.Grants (contents : Contents) (key : PermissionKey) (level : PermissionLevel) : Prop :=
  ∃ permission ∈ contents.permissions, permission.key = key ∧ permission.level = level

variable {kind : StoreKind} {store : kind.State} {maps : MemoryStore} {contents : Contents}
  {scope : Scope α} {levels : List PermissionLevel} {level : PermissionLevel} {listing : Listing}
  {key : PermissionKey} {rows : List α}

/-! ## Listings that are followed -/

private theorem Contents.HasTime.mem_times {time : Timestamp} (stored : contents.HasTime time) :
    time ∈ contents.times := by
  rcases stored with ⟨document, member, field, rfl⟩ | ⟨permission, member, field, rfl⟩ |
    ⟨guest, member, rfl⟩
  · have own : document.time field ∈ [document.createdAt, document.lastModifiedAt] := by
      cases field <;> simp [Document.time]
    exact List.mem_append_left _ (List.mem_append_left _ (List.mem_flatMap.2 ⟨_, member, own⟩))
  · have own : permission.time field ∈ [permission.createdAt, permission.lastModifiedAt] := by
      cases field <;> simp [Permission.time]
    exact List.mem_append_left _ (List.mem_append_right _ (List.mem_flatMap.2 ⟨_, member, own⟩))
  · exact List.mem_append_right _ (List.mem_map_of_mem member)

namespace StoreKind

private theorem Holds.page_of_answered (holds : kind.Holds store contents) {after : kind.State}
    {moment : Moment} {page : Page α}
    (answered : Store.step store moment (scope.list listing) = (.ok page, after)) :
    0 < listing.pageSize ∧ after = store ∧
      page.items = (kind.ahead scope listing.levels contents listing.cursor).take
        listing.pageSize ∧
      page.next = scope.next listing.cursor page.items := by
  rw [holds.step_list] at answered
  obtain ⟨given, rfl⟩ := Prod.mk.inj answered
  obtain ⟨-, positive, -, rfl⟩ := Scope.answer_ok_iff.1 given
  rw [page_eq]
  exact ⟨positive, rfl, rfl, rfl⟩

theorem Holds.followed_eq (holds : kind.Holds store contents)
    (followed : Followed scope store listing rows) :
    rows = kind.ahead scope listing.levels contents listing.cursor := by
  induction followed with
  | ended answered empty =>
      obtain ⟨positive, -, items, -⟩ := holds.page_of_answered answered
      rw [List.isEmpty_iff.1 empty] at items
      rcases List.take_eq_nil_iff.1 items.symm with zero | none
      · omega
      · exact none.symm
  | onward answered more rest ih =>
      -- A listing leaves the store as it is, so the next page is one of the same rows.
      obtain ⟨-, rfl, items, next⟩ := holds.page_of_answered answered
      have nonempty := List.isEmpty_eq_false_iff.1 more
      rw [ih holds, next, ahead_next holds.consistent holds.whole nonempty items, items,
        List.take_append_drop]

theorem Holds.followed_of_paged (holds : kind.Holds store contents)
    (there : scope.missing? contents = none) (chosen : levels ≠ []) {size : Nat}
    (positive : 0 < size) (moment : Moment) {pages : List (List α)}
    (paged : Paged size rows pages) (cursor : Cursor)
    (lies : kind.ahead scope levels contents cursor = rows) :
    Followed scope store ⟨levels, cursor, size⟩ rows := by
  induction paged generalizing cursor with
  | nil =>
      have answered := holds.list_eq there chosen positive moment cursor
      rw [lies, List.take_nil] at answered
      exact .ended answered rfl
  | @cons rows pages nonempty rest ih =>
      have answered := holds.list_eq there chosen positive moment cursor
      rw [lies] at answered
      have more := (Paged.cons nonempty rest).page_ne_nil positive _ List.mem_cons_self
      have followed := ih _ (holds.ahead_drop lies more)
      have whole := Followed.onward answered (List.isEmpty_eq_false_iff.2 more) followed
      rwa [List.take_append_drop] at whole

private theorem Holds.exists_followed (holds : kind.Holds store contents)
    (there : scope.missing? contents = none) (spans : listing.Spans kind contents level)
    (moment : Moment) :
    Followed scope store listing (kind.ahead scope listing.levels contents listing.cursor) := by
  obtain ⟨pages, paged⟩ := Paged.exists_pages spans.positive
    (kind.ahead scope listing.levels contents listing.cursor)
  have chosen : listing.levels ≠ [] := List.ne_nil_of_mem spans.chosen
  exact holds.followed_of_paged there chosen spans.positive moment paged _ rfl

private theorem Broken.not_followed (broken : kind.Broken store) :
    ¬ Followed scope store listing rows := by
  intro followed
  cases followed with
  | ended answered empty => exact broken.list_ne_ok scope _ _ _ (congrArg Prod.fst answered)
  | onward answered more rest => exact broken.list_ne_ok scope _ _ _ (congrArg Prod.fst answered)

/-- All rows of a listing lie ahead of what is later than every time. -/
theorem mem_ahead_of_spans (spans : listing.Spans kind contents level) {row : α} :
    row ∈ kind.ahead scope listing.levels contents listing.cursor ↔
      row ∈ scope.listed listing.levels contents := by
  rw [mem_ahead]
  refine and_iff_left_of_imp fun listed => ?_
  have stamped := Scope.stamped_of_mem (Scope.mem_rows_of_listed listed) listing.cursor.sortField
  exact OrderKey.before_iff.2 (.inl (spans.later _ stamped.hasTime.mem_times))

private theorem Holds.exists_row_iff (holds : kind.Holds store contents)
    (there : scope.missing? contents = none) (spans : listing.Spans kind contents level)
    (moment : Moment) (meant : α → Prop) :
    (∃ rows, Followed scope store listing rows ∧ ∃ row ∈ rows, meant row) ↔
      ∃ row ∈ scope.listed listing.levels contents, meant row := by
  constructor
  · intro given
    obtain ⟨rows, followed, row, member, means⟩ := given
    rw [holds.followed_eq followed, mem_ahead_of_spans spans] at member
    exact ⟨row, member, means⟩
  · intro given
    obtain ⟨row, listed, means⟩ := given
    exact ⟨_, holds.exists_followed there spans moment, row, (mem_ahead_of_spans spans).2 listed,
      means⟩

private theorem Holds.countP_eq_one (holds : kind.Holds store contents)
    (spans : listing.Spans kind contents level) {meant : α → Prop} [DecidablePred meant] {id : Uuid}
    (named : ∀ row, meant row → scope.rowId row = id)
    (present : ∃ row ∈ scope.listed listing.levels contents, meant row)
    (followed : Followed scope store listing rows) : rows.countP (meant ·) = 1 := by
  obtain ⟨row, listed, means⟩ := present
  rw [holds.followed_eq followed, List.countP_eq_length_filter,
    filter_eq_singleton (ids_ahead holds.consistent) ((mem_ahead_of_spans spans).2 listed)
      (decide_eq_true means)]
  · rfl
  · intro other _ means'
    exact (named other (of_decide_eq_true means')).trans (named row means).symm

end StoreKind

/-! ## The three views -/

theorem Scope.missing?_document {id : DocumentId}
    (there : (contents.documents.any fun document => document.id = id) = true) :
    (Scope.document id).missing? contents = none :=
  if_pos there

theorem Contents.grants_iff_document (contents : Contents) (id : DocumentId)
    (principal : PrincipalId) (chosen : level ∈ levels) :
    contents.Grants ⟨principal, id⟩ level ↔
      ∃ row ∈ (Scope.document id).listed levels contents,
        row.recipientId = principal ∧ row.level = level := by
  rw [Scope.listed_document]
  constructor
  · intro given
    obtain ⟨permission, member, named, rfl⟩ := given
    obtain ⟨rfl, rfl⟩ := PermissionKey.mk.inj named
    refine ⟨permission, List.mem_filter.2 ⟨member, ?_⟩, rfl, rfl⟩
    simpa using chosen
  · intro given
    obtain ⟨row, listed, rfl, rfl⟩ := given
    obtain ⟨member, kept⟩ := List.mem_filter.1 listed
    have onDocument := of_decide_eq_true (Bool.and_eq_true_iff.1 kept).1
    exact ⟨row, member, onDocument ▸ rfl, rfl⟩

theorem Contents.Consistent.grants_iff_principal (consistent : contents.Consistent)
    (id : DocumentId) (principal : PrincipalId) (chosen : level ∈ levels) :
    contents.Grants ⟨principal, id⟩ level ↔
      ∃ row ∈ (Scope.principal principal).listed levels contents,
        row.document.id = id ∧ row.level = level := by
  rw [Scope.listed_principal]
  constructor
  · intro given
    obtain ⟨permission, member, named, rfl⟩ := given
    obtain ⟨rfl, rfl⟩ := PermissionKey.mk.inj named
    -- The document of a permission is there, so the listing finds it.
    obtain ⟨document, stored, same⟩ := consistent.permission_document permission member
    cases found : contents.documents.find? fun document => document.id = permission.documentId with
    | none => exact absurd (decide_eq_true same) (List.find?_eq_none.1 found document stored)
    | some document =>
        refine ⟨⟨document, permission.level⟩, List.mem_filterMap.2 ⟨permission, member, ?_⟩,
          by simpa using List.find?_some found, rfl⟩
        simp [chosen, found]
  · intro given
    obtain ⟨row, listed, rfl, rfl⟩ := given
    obtain ⟨permission, member, read⟩ := List.mem_filterMap.1 listed
    rw [Option.ite_none_right_eq_some, Option.map_eq_some_iff] at read
    obtain ⟨kept, document, found, rfl⟩ := read
    have held := of_decide_eq_true (Bool.and_eq_true_iff.1 kept).1
    have named : document.id = permission.documentId := by simpa using List.find?_some found
    refine ⟨permission, member, ?_, rfl⟩
    rw [Permission.key, held, named]

private theorem StoreKind.Models.grants_iff (models : kind.Models store maps)
    (live : maps.poisoned = false) (moment : Moment) (key : PermissionKey)
    (level : PermissionLevel) :
    (∃ permission, (Store.step store moment (.getPermission key.document key.recipient)).1 =
        .ok permission ∧ permission.level = level) ↔ maps.contents.Grants key level := by
  simp only [(models.getPermission live moment key).eq_ok_iff]
  constructor
  · intro given
    obtain ⟨permission, held, leveled⟩ := given
    have named := models.intact.permission_key key permission held
    exact ⟨permission, Map.mem_values.2 ⟨key, held⟩, named, leveled⟩
  · intro given
    obtain ⟨permission, member, rfl, leveled⟩ := given
    obtain ⟨name, held⟩ := Map.mem_values.1 member
    obtain rfl := models.intact.permission_key name permission held
    exact ⟨permission, held, leveled⟩

/-- Of a document that is there, a principal holds a level by look-up, in the listing of the
permissions on the document and in the listing of the principal's documents, or in none of them.
Each listing, followed from later than all that is stored, has the row once. -/
theorem access_in_three_views {kind : StoreKind} {store : kind.State}
    (new : InspectedStore.isNew store) (history : List Asked) {contents : Contents}
    (held : InspectedStore.contents (Store.after store history) = .ok contents) {id : DocumentId}
    (there : (contents.documents.any fun document => document.id = id) = true)
    (principal : PrincipalId) {level : PermissionLevel} {onDocument ofPrincipal : Listing}
    (first : onDocument.Spans kind contents level)
    (second : ofPrincipal.Spans kind contents level) (moment : Moment) :
    let store := Store.after store history
    let looked := ∃ permission,
      (Store.step store moment (.getPermission id principal)).1 = .ok permission ∧
        permission.level = level
    [looked,
      ∃ rows, Followed (.document id) store onDocument rows ∧
        ∃ row ∈ rows, row.recipientId = principal ∧ row.level = level,
      ∃ rows, Followed (.principal principal) store ofPrincipal rows ∧
        ∃ row ∈ rows, row.document.id = id ∧ row.level = level].TFAE ∧
      (looked →
        (∀ rows, Followed (.document id) store onDocument rows →
          (rows.countP fun row => row.recipientId = principal ∧ row.level = level) = 1) ∧
        ∀ rows, Followed (.principal principal) store ofPrincipal rows →
          (rows.countP fun row => row.document.id = id ∧ row.level = level) = 1) := by
  intro store' looked
  by_cases broken : kind.Broken store'
  · have unlooked : ¬ looked := by
      intro given
      obtain ⟨permission, answered, -⟩ := given
      exact broken.ne_ok rfl moment permission answered
    refine ⟨?_, fun given => absurd given unlooked⟩
    tfae_have 1 ↔ 2 := by
      refine iff_of_false unlooked fun given => ?_
      obtain ⟨rows, followed, -⟩ := given
      exact broken.not_followed followed
    tfae_have 1 ↔ 3 := by
      refine iff_of_false unlooked fun given => ?_
      obtain ⟨rows, followed, -⟩ := given
      exact broken.not_followed followed
    tfae_finish
  · obtain ⟨maps, models⟩ := (StoreKind.models_new new).after history
    obtain ⟨holds, -⟩ := (StoreKind.holds_new new).after_of_works broken held
    cases models.contents_eq.symm.trans held
    have live := models.works_iff.1 broken
    have granted : looked ↔ maps.contents.Grants ⟨principal, id⟩ level :=
      models.grants_iff live moment ⟨principal, id⟩ level
    have onDocumentRow := maps.contents.grants_iff_document id principal first.chosen
    have ofPrincipalRow := holds.consistent.grants_iff_principal id principal second.chosen
    refine ⟨?_, fun given => ⟨fun rows followed => ?_, fun rows followed => ?_⟩⟩
    · tfae_have 1 ↔ 2 :=
        (granted.trans onDocumentRow).trans
          (holds.exists_row_iff (Scope.missing?_document there) first moment _).symm
      tfae_have 1 ↔ 3 :=
        (granted.trans ofPrincipalRow).trans (holds.exists_row_iff rfl second moment _).symm
      tfae_finish
    · have named (row : Permission) (means : row.recipientId = principal ∧ row.level = level) :
          (Scope.document id).rowId row = principal.uuid := congrArg Id.uuid means.1
      exact holds.countP_eq_one first named (onDocumentRow.1 (granted.1 given)) followed
    · have named (row : DocumentPermission) (means : row.document.id = id ∧ row.level = level) :
          (Scope.principal principal).rowId row = id.uuid := congrArg Id.uuid means.1
      exact holds.countP_eq_one second named (ofPrincipalRow.1 (granted.1 given)) followed

/-- The editor of the short history is in both listings, each on pages of its own size. -/
theorem editor_in_three_views :
    let store := Store.after MemoryStore.empty shortHistory
    let late : Timestamp := ⟨4, 0, by decide, by decide⟩
    let onDocument : Listing := ⟨[.viewer, .editor], ⟨.createdAt, late, .ofNat 0⟩, 1⟩
    let ofPrincipal : Listing := ⟨[.editor], ⟨.lastModifiedAt, late, .ofNat 0⟩, 5⟩
    (∃ rows, Followed (.document ⟨.ofNat 1⟩) store onDocument rows ∧
        ∃ row ∈ rows, row.recipientId = ⟨.ofNat 8⟩ ∧ row.level = .editor) ∧
      ∃ rows, Followed (.principal ⟨.ofNat 8⟩) store ofPrincipal rows ∧
        ∃ row ∈ rows, row.document.id = ⟨.ofNat 1⟩ ∧ row.level = .editor := by
  intro store late onDocument ofPrincipal
  have first : onDocument.Spans .memory store.contents .editor :=
    ⟨by decide, by decide, by decide +kernel⟩
  have second : ofPrincipal.Spans .memory store.contents .editor :=
    ⟨by decide, by decide, by decide +kernel⟩
  obtain ⟨views, -⟩ := @access_in_three_views .memory MemoryStore.empty rfl shortHistory
    store.contents rfl ⟨.ofNat 1⟩ (by decide +kernel) ⟨.ofNat 8⟩ .editor onDocument ofPrincipal
    first second (.ofNumbers 5 5)
  have looked : ∃ permission, (store.step (.ofNumbers 5 5)
      (.getPermission ⟨.ofNat 1⟩ ⟨.ofNat 8⟩)).1 = .ok permission ∧ permission.level = .editor :=
    ⟨⟨⟨.ofNat 1⟩, ⟨.ofNat 8⟩, .user, .editor, ⟨.ofNat 8⟩, ⟨3, 0, by decide, by decide⟩,
      ⟨3, 0, by decide, by decide⟩⟩, by decide +kernel, rfl⟩
  exact ⟨(views.out 0 1).1 looked, (views.out 0 2).1 looked⟩

/-- In tables a cursor later than all that is stored need not be late enough. Rounded down to
microseconds it meets the time of an owner's permission, and the identifiers decide. -/
theorem owner_missing_within_microsecond :
    let tables : TableStore := ⟨(TableStore.newTables default).database, false⟩
    let store := Store.after tables
      [⟨DocumentId, .ofNumbers 1000 1, .createDocument ⟨.ofNat 7⟩ {}⟩]
    let scope := Scope.document ⟨.ofNat 1⟩
    let listing : Listing :=
      ⟨[.owner], ⟨.createdAt, ⟨1000, 500, by decide, by decide⟩, .ofNat 0⟩, 1⟩
    TableStore.open ⟨0, 0⟩ .empty = (.ok (), tables) ∧
      (∃ contents, store.contents = .ok contents ∧
        (contents.documents.any fun document => document.id = ⟨.ofNat 1⟩) = true ∧
        ∀ time ∈ contents.times, time.before listing.cursor.lastSeenTime = true) ∧
      (∃ permission, (store.step (.ofNumbers 2000 2) (.getPermission ⟨.ofNat 1⟩ ⟨.ofNat 7⟩)).1 =
          .ok permission ∧ permission.level = .owner) ∧
      Followed scope store listing [] ∧ ∀ rows, Followed scope store listing rows → rows = [] := by
  intro tables store scope listing
  have opened : TableStore.open ⟨0, 0⟩ .empty = (.ok (), tables) := TableStore.open_empty rfl
  have new : InspectedStore.isNew tables := ⟨_, opened⟩
  obtain ⟨contents, holds, -⟩ := ((@StoreKind.holds_new .tables tables new).after
    [⟨DocumentId, .ofNumbers 1000 1, .createDocument ⟨.ofNat 7⟩ {}⟩]).resolve_right id
  have shows : store.contents.toOption.map (fun contents =>
      (contents.documents.any fun document => document.id = ⟨.ofNat 1⟩) &&
        contents.times.all (fun time => time.before listing.cursor.lastSeenTime) &&
        (StoreKind.tables.ahead scope listing.levels contents listing.cursor).isEmpty) =
      some true := by decide +kernel
  have read : store.contents = .ok contents := holds.contents_eq
  rw [read] at shows
  obtain ⟨shown, none⟩ := Bool.and_eq_true_iff.1 (Option.some.inj shows)
  obtain ⟨there, later⟩ := Bool.and_eq_true_iff.1 shown
  have lies := List.isEmpty_iff.1 none
  refine ⟨opened, ⟨contents, read, there, List.all_eq_true.1 later⟩, ?_, ?_, ?_⟩
  · exact ⟨.ofOwner ⟨.ofNat 7⟩ ⟨.ofNat 1⟩ ⟨1000, 0, by decide, by decide⟩, by decide +kernel, rfl⟩
  · exact holds.followed_of_paged (Scope.missing?_document there) (by decide) (by decide)
      (.ofNumbers 2000 2) .nil listing.cursor lies
  · exact fun rows followed => (holds.followed_eq followed).trans lies

end DocAccess
