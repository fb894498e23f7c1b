import DocAccess.Proofs.Memory.Writes
import DocAccess.Proofs.Testing.Underway

/-!
# Calls of a session under way

What each call answers while a session is under way, and the maps that it comes to. Two
questions are left to the maps: what they have written, and what they refuse.
-/

set_option autoImplicit false

namespace DocAccess

variable {α : Type}

theorem Action.isClash_of_takesId {operation : Operation α} (takes : operation.takesId = false)
    (moment : Moment) (contents : Contents) : operation.isClash moment contents = false := by
  cases operation with
  | createGuest creator document level => cases takes
  | _ => rfl

theorem StoreKind.draws_eq_false {kind : StoreKind} {store : kind.State} {operation : Operation α}
    (takes : operation.takesId = false) : Store.draws store operation = false := by
  rw [Bool.eq_false_iff]
  intro draws
  rw [takesId_of_draws draws] at takes
  cases takes

private theorem Outcome.exists_error {outcome : Outcome α} {failure : ErrorKind}
    (failed : outcome.errorKind? = some failure) :
    ∃ reason, outcome = .error reason ∧ reason.kind = failure := by
  cases outcome with
  | ok value => cases failed
  | error reason => exact ⟨reason, rfl, Option.some.inj failed⟩
  | aborted => cases failed

namespace Testing.Session.Underway

open Run (draw)

variable {kind : StoreKind} {session : Session kind.State} {gap : Int}
  {maps written : MemoryStore} {used : List Uuid} {ids calls : Nat} {operation : Operation α}
  {value : α} {failure : ErrorKind} {document : DocumentId} {guest : GuestId}
  {principal : PrincipalId} {user creator : UserId} {level : PermissionLevel}

/-! ## Operations of any sort -/

theorem intact (underway : session.Underway gap maps used ids calls) : maps.Integrity :=
  underway.models.intact

theorem holds (underway : session.Underway gap maps used ids calls) :
    kind.Holds session.store maps.contents :=
  underway.models.holds underway.live underway.whole

theorem ok_of_step (underway : session.Underway gap maps used ids (calls + 1))
    (steps : maps.step session.moment operation = (.ok value, written))
    (unclash : operation.isClash session.moment maps.contents = false)
    (whole : operation.hasWholeCursor = true) :
    (Store.step session.store session.moment operation).1 = .ok value := by
  have agrees := underway.models.agrees (fun _ => underway.isReadable) unclash whole
    (by simp [steps])
  rw [steps] at agrees
  exact agrees.eq_ok

/-- What takes no identifier and succeeds on the maps, succeeds. -/
theorem succeeds (underway : session.Underway gap maps used ids (calls + 1))
    (steps : maps.step session.moment operation = (.ok value, written))
    (takes : operation.takesId = false) (whole : operation.hasWholeCursor = true)
    (granted : ∀ user ∈ operation.grantee?, user.uuid ∈ used) :
    (Run.call operation).Yields session fun found after =>
      found = value ∧ after.Underway gap written used ids calls := by
  have names : (maps.step session.moment operation).2.Names used :=
    underway.names.change (MemoryStore.change_step _ _ _)
      (fun takes' => absurd (takes.symm.trans takes') (by decide)) granted
  have apart : (Draws.take ids (if Store.draws session.store operation then
      session.draws.next.2 else session.draws) ++ used).Nodup := by
    rw [StoreKind.draws_eq_false takes]
    exact underway.apart
  obtain ⟨after, ends, onward⟩ := underway.call names apart underway.random
  have unclash := Action.isClash_of_takesId takes session.moment maps.contents
  rw [underway.ok_of_step steps unclash whole] at ends
  rw [steps] at onward
  exact ⟨value, after, ends, rfl, onward⟩

/-- What draws an identifier and succeeds on the maps, succeeds. -/
theorem mints (underway : session.Underway gap maps used (ids + 1) (calls + 1))
    (steps : maps.step session.moment operation = (.ok value, written))
    (draws : Store.draws session.store operation = true)
    (unclash : operation.isClash session.moment maps.contents = false)
    (whole : operation.hasWholeCursor = true)
    (granted : ∀ user ∈ operation.grantee?, user.uuid ∈ used) :
    (Run.call operation).Yields session fun found after =>
      found = value ∧ after.Underway gap written (session.draws.next.1 :: used) ids calls := by
  have names : (maps.step session.moment operation).2.Names (session.draws.next.1 :: used) :=
    (underway.names.mono (List.subset_cons_self _ _)).change (MemoryStore.change_step _ _ _)
      (fun _ => List.mem_cons_self)
      (fun user given => List.mem_cons_of_mem _ (granted user given))
  have apart : (Draws.take ids (if Store.draws session.store operation then
      session.draws.next.2 else session.draws) ++ session.draws.next.1 :: used).Nodup := by
    rw [draws]
    exact underway.apart_next
  obtain ⟨after, ends, onward⟩ := underway.call names apart underway.random_next
  rw [underway.ok_of_step steps unclash whole] at ends
  rw [steps] at onward
  exact ⟨value, after, ends, rfl, onward⟩

theorem fails_of_apart {ids' : Nat} (underway : session.Underway gap maps used ids (calls + 1))
    (failed : (maps.step session.moment operation).1.errorKind? = some failure)
    (unclash : operation.isClash session.moment maps.contents = false)
    (whole : operation.hasWholeCursor = true)
    (apart : (Draws.take ids' (if Store.draws session.store operation then
      session.draws.next.2 else session.draws) ++ used).Nodup) :
    (Run.call operation).Fails failure session fun after =>
      after.Underway gap maps used ids' calls := by
  obtain ⟨reason, refused, -⟩ := Outcome.exists_error failed
  have same : (maps.step session.moment operation).2 = maps :=
    (MemoryStore.change_step maps session.moment operation).unchanged refused
  have names : (maps.step session.moment operation).2.Names used := by
    rw [same]
    exact underway.names
  obtain ⟨after, ends, onward⟩ := underway.call names apart underway.random
  have failed' := underway.models.agrees_failed failed (fun _ => underway.isReadable) unclash whole
  obtain ⟨reason, refused, named⟩ := Outcome.exists_error failed'
  rw [refused] at ends
  rw [same] at onward
  exact ⟨reason, after, ends, named, onward⟩

/-- What takes no identifier and fails on the maps, fails, and the maps stay. -/
theorem fails (underway : session.Underway gap maps used ids (calls + 1))
    (failed : (maps.step session.moment operation).1.errorKind? = some failure)
    (takes : operation.takesId = false) (whole : operation.hasWholeCursor = true) :
    (Run.call operation).Fails failure session fun after =>
      after.Underway gap maps used ids calls := by
  refine underway.fails_of_apart failed (Action.isClash_of_takesId takes _ _) whole ?_
  rw [StoreKind.draws_eq_false takes]
  exact underway.apart

/-- An identifier that a check draws itself. -/
theorem draws (underway : session.Underway gap maps used (ids + 1) calls) :
    (draw : Run kind.State Uuid).Yields session fun id after =>
      id ∉ used ∧ after.Underway gap maps (id :: used) ids calls := by
  refine ⟨_, _, rfl, underway.unused, ?_⟩
  exact { underway with
    names := underway.names.mono (List.subset_cons_self _ _)
    apart := underway.apart_next
    random := underway.random_next }

/-! ## Operations one by one -/

theorem createDocument (underway : session.Underway gap maps used (ids + 1) (calls + 1))
    (known : creator.uuid ∈ used) (fields : DocumentFields) :
    (Run.call (.createDocument creator fields)).Yields session fun id after =>
      id.uuid ∉ used ∧ ∃ now written,
        (∀ time, maps.contents.HasTime time → time.nanos + gap * 1000 ≤ now.nanos) ∧
          written = maps.addDocument creator (.ofFields id fields now) now ∧
            after.Underway gap written (id.uuid :: used) ids calls := by
  obtain ⟨now, read, past⟩ := underway.exists_now
  have fresh := underway.names.document_absent ⟨session.draws.next.1⟩ underway.unused
  have steps := MemoryStore.step_createDocument underway.live read fresh creator fields
  refine (underway.mints steps ?_ rfl rfl ?_).mono ?_
  · cases kind with
    | memory =>
        obtain ⟨same, -⟩ := underway.models
        show (!session.store.poisoned) = true
        rw [same, underway.live]
        rfl
    | tables => rfl
  · rintro user ⟨⟩
    exact known
  · rintro id after ⟨rfl, onward⟩
    exact ⟨underway.unused, now, _, past, rfl, onward⟩

theorem createGuest (underway : session.Underway gap maps used (ids + 1) (calls + 1))
    {stored : Document} (found : maps.documents[document]? = some stored)
    (giver : PrincipalId) (level : PermissionLevel) :
    (Run.call (.createGuest giver document level)).Yields session fun guest after =>
      guest.uuid ∉ used ∧ ∃ now written,
        written = maps.addGuest ⟨guest, document, giver, now⟩ level ∧
          after.Underway gap written (guest.uuid :: used) ids calls := by
  obtain ⟨now, read, -⟩ := underway.exists_now
  have fresh := underway.names.guest_absent ⟨session.draws.next.1⟩ underway.unused
  have unheld := underway.names.permission_absent
    ⟨.ofGuest ⟨session.draws.next.1⟩, document⟩ underway.unused
  have steps := MemoryStore.step_createGuest underway.live read found fresh unheld giver level
  have present := Map.contains_iff.2 ⟨stored, found⟩
  refine (underway.mints steps ?_ ?_ rfl nofun).mono ?_
  · cases kind with
    | memory =>
        obtain ⟨same, -⟩ := underway.models
        show (!session.store.poisoned && session.store.documents.contains document) = true
        rw [same, underway.live, present]
        rfl
    | tables => rfl
  · have stands := Map.any_values underway.intact.document_id document
    rw [present] at stands
    simp only [Action.isClash, MemoryStore.contents, stands, Bool.not_true, Bool.and_false]
  · rintro guest after ⟨rfl, onward⟩
    exact ⟨underway.unused, now, _, rfl, onward⟩

/-- Whether an identifier is drawn for it depends on the kind of the store. -/
theorem createGuest_missing (underway : session.Underway gap maps used (ids + 1) (calls + 1))
    (absent : maps.documents[document]? = none) (giver : PrincipalId) (level : PermissionLevel) :
    (Run.call (.createGuest giver document level)).Fails .notFound session fun after =>
      after.Underway gap maps used ids calls := by
  have unknown := underway.names.guest_absent ⟨session.moment.drawn⟩ underway.unused
  refine underway.fails_of_apart ?_ ?_ rfl ?_
  · rw [MemoryStore.step_createGuest_missing underway.live absent]
    rfl
  · have stands := Map.any_values underway.intact.guest_id ⟨session.moment.drawn⟩
    rw [Map.contains_eq_false_iff.2 unknown] at stands
    simp only [Action.isClash, MemoryStore.contents, stands, Bool.false_and]
  · split
    · exact underway.apart_skip
    · exact underway.apart.sublist
        ((Draws.take_sublist ids _).append_right _)

theorem upsertUser (underway : session.Underway gap maps used ids (calls + 1)) {stored : Document}
    (found : maps.documents[document]? = some stored) (known : user.uuid ∈ used)
    (level : PermissionLevel)
    (byUser : ∀ held, maps.permissions[(⟨.ofUser user, document⟩ : PermissionKey)]? = some held →
      held.recipientType = .user) :
    (Run.call (.upsertUser user document level)).Yields session fun _ after =>
      ∃ permission written, permission.key = ⟨.ofUser user, document⟩ ∧ permission.level = level ∧
        permission.recipientType = .user ∧ permission.createdBy = .ofUser user ∧
          written = maps.putPermission permission ∧
            after.Underway gap written used ids calls := by
  obtain ⟨now, read, -⟩ := underway.exists_now
  obtain ⟨permission, named, leveled, type, giver, steps⟩ :=
    MemoryStore.step_upsertUser underway.live read found level fun held looked =>
      ⟨underway.intact.permission_key _ held looked, byUser held looked,
        underway.intact.user_creator _ held looked (byUser held looked)⟩
  refine (underway.succeeds steps rfl rfl ?_).mono ?_
  · rintro user ⟨⟩
    exact known
  · rintro value after ⟨-, onward⟩
    exact ⟨permission, _, named, leveled, type, giver, rfl, onward⟩

theorem updateDocument (underway : session.Underway gap maps used ids (calls + 1))
    {stored : Document} (found : maps.documents[document]? = some stored)
    {fields : DocumentFields} (sets : fields.isEmpty = false) :
    (Run.call (.updateDocument document fields)).Yields session fun _ after =>
      ∃ now written,
        (∀ time, maps.contents.HasTime time → time.nanos + gap * 1000 ≤ now.nanos) ∧
          written = maps.putDocument { stored.withFields fields with lastModifiedAt := now } ∧
            after.Underway gap written used ids calls := by
  obtain ⟨now, read, past⟩ := underway.exists_now
  obtain rfl := underway.intact.document_id document stored found
  have steps := MemoryStore.step_updateDocument underway.live read found sets
  refine (underway.succeeds steps rfl rfl nofun).mono ?_
  rintro value after ⟨-, onward⟩
  exact ⟨now, _, past, rfl, onward⟩

theorem updateGuest (underway : session.Underway gap maps used ids (calls + 1))
    {record : Guest} (known : maps.guests[guest]? = some record) {permission : Permission}
    (held : maps.permissions[(⟨.ofGuest guest, record.documentId⟩ : PermissionKey)]? =
      some permission)
    (byGuest : permission.recipientType = .guest) (level : PermissionLevel) :
    (Run.call (.updateGuest guest level)).Yields session fun _ after =>
      ∃ now written, written = maps.putPermission (permission.withLevel level now) ∧
        after.Underway gap written used ids calls := by
  obtain ⟨now, read, -⟩ := underway.exists_now
  have named := underway.intact.permission_key _ permission held
  rw [← named] at held
  have current := MemoryStore.guestPermission?_eq_some_iff.2 ⟨record, known, named, held, byGuest⟩
  have steps := MemoryStore.step_updateGuest underway.live read current level
  refine (underway.succeeds steps rfl rfl nofun).mono ?_
  rintro value after ⟨-, onward⟩
  exact ⟨now, _, rfl, onward⟩

theorem deleteDocument (underway : session.Underway gap maps used ids (calls + 1))
    {stored : Document} (found : maps.documents[document]? = some stored) :
    (Run.call (.deleteDocument document)).Yields session fun _ after =>
      ∃ written, written = maps.eraseDocument document ∧
        after.Underway gap written used ids calls :=
  (underway.succeeds (MemoryStore.step_deleteDocument underway.live found) rfl rfl nofun).mono
    fun _ _ ends => ⟨_, rfl, ends.2⟩

theorem deletePermission (underway : session.Underway gap maps used ids (calls + 1))
    {permission : Permission}
    (held : maps.permissions[(⟨principal, document⟩ : PermissionKey)]? = some permission) :
    (Run.call (.deletePermission principal document)).Yields session fun _ after =>
      ∃ written, written = maps.erasePermission ⟨principal, document⟩ ∧
        after.Underway gap written used ids calls :=
  (underway.succeeds (MemoryStore.step_deletePermission underway.live held) rfl rfl nofun).mono
    fun _ _ ends => ⟨_, rfl, ends.2⟩

theorem getDocument (underway : session.Underway gap maps used ids (calls + 1))
    {stored : Document} (found : maps.documents[document]? = some stored) :
    (Run.call (.getDocument document)).Yields session fun value after =>
      value = stored ∧ after.Underway gap maps used ids calls := by
  refine underway.succeeds ?_ rfl rfl nofun
  rw [MemoryStore.step_getDocument underway.live, found]
  rfl

theorem getPermission (underway : session.Underway gap maps used ids (calls + 1))
    {permission : Permission}
    (held : maps.permissions[(⟨principal, document⟩ : PermissionKey)]? = some permission) :
    (Run.call (.getPermission document principal)).Yields session fun value after =>
      value = permission ∧ after.Underway gap maps used ids calls := by
  refine underway.succeeds ?_ rfl rfl nofun
  rw [MemoryStore.step_getPermission underway.live, held]
  rfl

theorem getGuest (underway : session.Underway gap maps used ids (calls + 1)) {record : Guest}
    (known : maps.guests[guest]? = some record) :
    (Run.call (.getGuest guest)).Yields session fun value after =>
      value = record ∧ after.Underway gap maps used ids calls := by
  refine underway.succeeds ?_ rfl rfl nofun
  rw [MemoryStore.step_getGuest underway.live, known]
  rfl

theorem conflicts (underway : session.Underway gap maps used ids (calls + 1)) (user : UserId)
    {stored : Document} (found : maps.documents[document]? = some stored) {permission : Permission}
    (held : maps.permissions[(⟨.ofUser user, document⟩ : PermissionKey)]? = some permission)
    (byGuest : permission.recipientType = .guest) :
    (Run.call (.upsertUser user document level)).Fails .uniqueConflict session fun after =>
      after.Underway gap maps used ids calls := by
  obtain ⟨now, read, -⟩ := underway.exists_now
  exact underway.fails
    (MemoryStore.step_upsertUser_conflict underway.live read found level held byGuest) rfl rfl

/-- Without a permission there is none to find, to change or to delete. -/
theorem unheld (underway : session.Underway gap maps used ids (calls + 1)) {key : PermissionKey}
    (none : maps.permissions[key]? = none) :
    (Run.call (.getPermission key.document key.recipient)).Fails .notFound session (fun after =>
        after.Underway gap maps used ids calls) ∧
      (Run.call (.deletePermission key.recipient key.document)).Fails .notFound session fun after =>
        after.Underway gap maps used ids calls := by
  constructor
  · refine underway.fails ?_ rfl rfl
    rw [MemoryStore.step_getPermission underway.live, none]
    rfl
  · refine underway.fails ?_ rfl rfl
    rw [MemoryStore.step_deletePermission_missing underway.live none]
    rfl

theorem unheldGuest (underway : session.Underway gap maps used ids (calls + 1))
    (none : maps.guestPermission? guest = none) :
    (Run.call (.updateGuest guest level)).Fails .notFound session fun after =>
      after.Underway gap maps used ids calls := by
  refine underway.fails ?_ rfl rfl
  rw [MemoryStore.step_updateGuest_missing underway.live none]
  rfl

theorem unknownGuest (underway : session.Underway gap maps used ids (calls + 1))
    (none : maps.guests[guest]? = none) :
    (Run.call (.getGuest guest)).Fails .notFound session fun after =>
      after.Underway gap maps used ids calls := by
  refine underway.fails ?_ rfl rfl
  rw [MemoryStore.step_getGuest underway.live, none]
  rfl

/-- Of a document that is not there, nothing is found. -/
theorem missing (underway : session.Underway gap maps used ids (calls + 1))
    (operation : Operation α) (absent : maps.documents[document]? = none)
    (needs : operation.needs? = some document) (takes : operation.takesId = false)
    (whole : operation.hasWholeCursor = true) :
    (Run.call operation).Fails .notFound session fun after =>
      after.Underway gap maps used ids calls :=
  underway.fails (MemoryStore.step_missing underway.intact underway.live absent needs _) takes whole

/-! ## Listings -/

variable {scope : Scope α} {levels : List PermissionLevel} {size : Nat} {sortField : SortField}
  {rows : List α} {pages : List (List α)}

theorem list (underway : session.Underway gap maps used ids (calls + 1)) (scope : Scope α)
    (there : scope.missing? maps.contents = none) (chosen : levels ≠ []) (positive : 0 < size)
    (cursor : Cursor) :
    (Run.call (scope.list ⟨levels, cursor, size⟩)).Yields session fun page after =>
      page = ⟨(kind.ahead scope levels maps.contents cursor).take size,
          scope.next cursor ((kind.ahead scope levels maps.contents cursor).take size)⟩ ∧
        after.Underway gap maps used ids calls := by
  have answered := congrArg Prod.fst
    (underway.holds.list_eq there chosen positive session.moment cursor)
  have steps : (maps.step session.moment (scope.list ⟨levels, cursor, size⟩)).2 = maps :=
    congrArg Prod.snd (MemoryStore.step_list underway.intact underway.live scope _ _)
  have takes : (scope.list ⟨levels, cursor, size⟩).takesId = false := by cases scope <;> rfl
  have names : (maps.step session.moment (scope.list ⟨levels, cursor, size⟩)).2.Names used := by
    rw [steps]
    exact underway.names
  have apart : (Draws.take ids (if Store.draws session.store (scope.list ⟨levels, cursor, size⟩)
      then session.draws.next.2 else session.draws) ++ used).Nodup := by
    rw [StoreKind.draws_eq_false takes]
    exact underway.apart
  obtain ⟨after, ends, onward⟩ := underway.call names apart underway.random
  rw [answered] at ends
  rw [steps] at onward
  exact ⟨_, after, ends, rfl, onward⟩

private theorem drainFrom
    (underway : session.Underway gap maps used ids (calls + (pages.length + 1)))
    (there : scope.missing? maps.contents = none) (chosen : levels ≠ []) (positive : 0 < size)
    (paged : Paged size rows pages) (cursor : Cursor)
    (lies : kind.ahead scope levels maps.contents cursor = rows) {limit : Nat}
    (enough : pages.length < limit) :
    (Testing.drainFrom (fun cursor => Run.call (scope.list ⟨levels, cursor, size⟩)) size limit
        cursor).Yields session fun found after =>
      found = rows ∧ after.Underway gap maps used ids calls := by
  induction paged generalizing cursor session limit with
  | nil =>
      obtain ⟨limit, rfl⟩ := Nat.exists_eq_add_of_lt enough
      rw [Testing.drainFrom]
      refine (underway.list scope there chosen positive cursor).bind ?_
      rintro page after ⟨rfl, onward⟩
      rw [lies, List.take_nil]
      exact Run.yields_pure ⟨rfl, onward⟩
  | @cons rows pages nonempty rest ih =>
      have some := (Paged.cons nonempty rest).page_ne_nil positive _ List.mem_cons_self
      have next := underway.holds.ahead_drop lies some
      obtain ⟨limit, rfl⟩ := Nat.exists_eq_add_of_lt enough
      rw [Testing.drainFrom]
      refine (underway.list scope there chosen positive cursor).bind ?_
      rintro page after ⟨rfl, onward⟩
      simp only [lies, Page.isEmpty, List.isEmpty_eq_false_iff.2 some, Bool.false_eq_true, if_false]
      refine Run.yields_ensure_bind (decide_eq_true (List.length_take_le size rows)) ?_
      refine (ih onward _ next ?_).bind ?_
      · rw [List.length_cons]
        omega
      · rintro found after ⟨rfl, onward⟩
        exact Run.yields_pure ⟨List.take_append_drop size rows, onward⟩

theorem now_past (underway : session.Underway gap maps used ids calls) :
    ∃ now, session.clock.now? = some now ∧
      ∀ time, maps.contents.HasTime time → time.nanos ≤ now.nanos := by
  obtain ⟨last, paced, past⟩ := underway.paced
  obtain ⟨stands, reached⟩ := paced.now
  obtain ⟨now, read, same⟩ := stands.exists_now
  refine ⟨now, read, fun time stored => ?_⟩
  have := past time stored
  omega

theorem rowId_mem (underway : session.Underway gap maps used ids calls) {row : α}
    (listed : row ∈ scope.listed levels maps.contents) : scope.rowId row ∈ used := by
  have member := Scope.mem_rows_of_listed listed
  cases scope with
  | document id =>
      obtain ⟨key, held⟩ := Map.mem_values.1 (List.mem_filter.1 member).1
      have named := underway.intact.permission_key key row held
      have inUse := underway.names.recipient key row held
      rwa [← named] at inUse
  | principal id =>
      obtain ⟨key, found⟩ := Map.mem_values.1 (Scope.document_of_mem_rows member)
      have named := underway.intact.document_id key row.document found
      have inUse := underway.names.document key row.document found
      rwa [← named] at inUse

/-- Everything that is listed is ahead of the beginning, since no time that is stored is later
and no identifier in use is the greatest. -/
theorem ahead_perm (underway : session.Underway gap maps used ids calls) {cursor : Cursor}
    (begins : Cursor.beginning? session.clock sortField = some cursor) (scope : Scope α)
    (levels : List PermissionLevel) :
    (kind.ahead scope levels maps.contents cursor).Perm (scope.listed levels maps.contents) ∧
      Descending (scope.orderKey sortField) (kind.ahead scope levels maps.contents cursor) := by
  obtain ⟨now, read, rfl⟩ := Option.map_eq_some_iff.1 begins
  obtain ⟨shown, read', past⟩ := underway.now_past
  obtain rfl : now = shown := Option.some.inj (read.symm.trans read')
  have gives : scope.Gives levels maps.contents ⟨sortField, now, .max⟩
      (kind.ahead scope levels maps.contents ⟨sortField, now, .max⟩) :=
    underway.holds.gives_ahead (Clock.isWhole_of_now? read)
  refine ⟨gives.perm.trans ?_, gives.descending⟩
  rw [List.filter_eq_self.2]
  intro row listed
  have stamped := Scope.stamped_of_mem (Scope.mem_rows_of_listed listed) sortField
  refine (Scope.admits_or_max begins ?_).resolve_right ?_
  · intro other read''
    obtain rfl : now = other := Option.some.inj (read.symm.trans read'')
    exact past _ stamped.hasTime
  · rintro ⟨greatest, -⟩
    exact underway.random _ (underway.rowId_mem listed) greatest

theorem beginning (underway : session.Underway gap maps used ids calls) (sortField : SortField) :
    (Run.beginning sortField).Yields session fun cursor after =>
      after = session ∧ cursor.lastSeenTime.isWhole = true ∧
        Cursor.beginning? session.clock sortField = some cursor := by
  obtain ⟨now, read, -⟩ := underway.now_past
  have begins : Cursor.beginning? session.clock sortField = some ⟨sortField, now, .max⟩ := by
    rw [Cursor.beginning?, read]
    rfl
  refine ⟨⟨sortField, now, .max⟩, session, ?_, rfl, Clock.isWhole_of_now? read, begins⟩
  rw [Run.beginning, begins]

theorem there (underway : session.Underway gap maps used ids calls) {stored : Document}
    (found : maps.documents[document]? = some stored) :
    (Scope.document document).missing? maps.contents = none := by
  rw [MemoryStore.missing?_eq underway.intact, if_pos (Map.contains_iff.2 ⟨stored, found⟩)]

/-- Draining gives those who have one of the levels, each with its level. -/
theorem drain {count : Nat} (underway : session.Underway gap maps used ids (calls + (count + 1)))
    (scope : Scope α) (there : scope.missing? maps.contents = none) (chosen : levels ≠ [])
    (positive : 0 < size) {names : List Uuid} (apart : names.Nodup)
    (given : ∀ name, (∃ level ∈ levels, maps.level? (scope.keyOf name) = some level) ↔
      name ∈ names)
    (fills : names.length ⌈/⌉ size = count) (few : count < maxPages) (sortField : SortField) :
    (scope.drain levels sortField size).Yields session fun rows after =>
      (rows.map scope.rowId).Perm names ∧ (∀ row ∈ rows, scope.level row ∈ levels) ∧
        after.Underway gap maps used ids calls := by
  have unfolded : (scope.drain levels sortField size : Run kind.State (List α)) =
      Run.beginning sortField >>= Testing.drainFrom
        (fun cursor => Run.call (scope.list ⟨levels, cursor, size⟩)) size maxPages := by
    cases scope <;> rfl
  rw [unfolded]
  refine (underway.beginning sortField).bind ?_
  rintro cursor after ⟨rfl, -, begins⟩
  obtain ⟨perm, -⟩ := underway.ahead_perm begins scope levels
  have listed := MemoryStore.listed_perm underway.intact apart given
  obtain ⟨pages, paged⟩ := Paged.exists_pages positive
    (kind.ahead scope levels maps.contents cursor)
  have length : (kind.ahead scope levels maps.contents cursor).length = names.length := by
    rw [perm.length_eq, ← listed.length_eq, List.length_map]
  have enough := paged.count_eq positive
  rw [length, fills] at enough
  rw [← enough] at underway few
  refine (underway.drainFrom there chosen positive paged cursor rfl few).mono ?_
  rintro rows last ⟨rfl, onward⟩
  refine ⟨(perm.map scope.rowId).trans listed, fun row member => ?_, onward⟩
  exact (MemoryStore.level?_of_listed underway.intact (perm.subset member)).1

/-- What draining ends with does not depend on how the clock goes on. -/
theorem drain_outcome (underway : session.Underway gap maps used ids calls) (scope : Scope α)
    (there : scope.missing? maps.contents = none) (chosen : levels ≠ []) (positive : 0 < size)
    (sortField : SortField) :
    ∃ rows, rows.Perm (scope.listed levels maps.contents) ∧
      Descending (scope.orderKey sortField) rows ∧
        (scope.drain levels sortField size session).1 =
          if rows.length ⌈/⌉ size < maxPages then .ok rows else .aborted := by
  obtain ⟨now, read, -⟩ := underway.now_past
  have begins : Cursor.beginning? session.clock sortField = some ⟨sortField, now, .max⟩ := by
    rw [Cursor.beginning?, read]
    rfl
  obtain ⟨perm, descends⟩ := underway.ahead_perm begins scope levels
  obtain ⟨pages, paged⟩ := Paged.exists_pages positive
    (kind.ahead scope levels maps.contents ⟨sortField, now, .max⟩)
  refine ⟨_, perm, descends, ?_⟩
  rw [← paged.count_eq positive]
  exact underway.holds.drain_eq there chosen positive paged ⟨rfl, underway.clear⟩ begins

/-- A listing without levels or without room is refused. -/
theorem refused (underway : session.Underway gap maps used ids (calls + 1)) (scope : Scope α)
    (void : levels = [] ∨ size = 0) {cursor : Cursor}
    (whole : cursor.lastSeenTime.isWhole = true) :
    (Run.call (scope.list ⟨levels, cursor, size⟩)).Fails .invalidInput session fun after =>
      after.Underway gap maps used ids calls := by
  have refuses : ∃ reason,
      (Listing.mk levels cursor size).validate = .error (.invalidInput reason) := by
    rcases (Listing.mk levels cursor size).validate_cases with ⟨some, positive, -⟩ | ⟨-, refuses⟩
    · rcases void with none | rfl
      · exact absurd none some
      · cases positive
    · exact refuses
  obtain ⟨reason, refuses⟩ := refuses
  refine underway.fails ?_ (by cases scope <;> rfl) (by cases scope <;> exact whole)
  rw [MemoryStore.step_list underway.intact underway.live, Scope.answer, refuses]
  rfl

end Testing.Session.Underway
end DocAccess
