import DocAccess.Proofs.Events
import DocAccess.Proofs.Listing.Walk

/-!
# Documents that are gone

A document that has been deleted is found by nobody, and its guests with it, until one of its
identifier is made. That one starts with its owner alone: whatever was left of the old document
would be a row that refers to nothing.
-/

set_option autoImplicit false

namespace DocAccess

variable {α : Type}

/-- The document that an operation needs, unless it is to mint a guest for it. -/
def Action.needs? : Operation α → Option DocumentId
  | .getDocument id => some id
  | .updateDocument id fields => if fields.isEmpty then none else some id
  | .deleteDocument id => some id
  | .upsertUser _ id _ => some id
  | .getPermission id _ => some id
  | .deletePermission _ id => some id
  | .listPermissions id listing => if listing.validate.toBool then some id else none
  | _ => none

@[simp]
theorem Outcome.errorKind?_error (failure : StoreError) :
    (Outcome.error failure : Outcome α).errorKind? = some failure.kind := rfl

namespace StoreError

@[simp]
theorem kind_documentNotFound (id : DocumentId) : (documentNotFound id).kind = .notFound := rfl

@[simp]
theorem kind_permissionNotFound (principal : PrincipalId) (id : DocumentId) :
    (permissionNotFound principal id).kind = .notFound := rfl

end StoreError

/-! ## Changes -/

namespace MemoryStore

variable {store maps after : MemoryStore} {moment : Moment} {operation : Operation α}
  {outcome : Outcome α} {id : DocumentId} {guest : GuestId} {record : Guest}

namespace Change

theorem absent_of_deleted (changes : Change store moment operation outcome after)
    (deletes : operation.deleted? outcome = some id) : after.documents[id]? = none := by
  obtain ⟨⟨value, done⟩, writes⟩ := Action.isWrite_of_deleted? deletes
  cases changes with
  | documentDeleted found =>
      cases deletes
      exact Std.ExtTreeMap.getElem?_erase_self
  | refused => cases done
  | answered reads =>
      rw [reads] at writes
      cases writes
  | brokenOff unread => cases done
  | _ => cases deletes

theorem stays_absent (changes : Change store moment operation outcome after)
    (absent : store.documents[id]? = none)
    (unmade : ∀ creator, operation.made? outcome ≠ some (creator, id)) :
    after.documents[id]? = none := by
  have replaced {other : DocumentId} {old changed : Document}
      (found : store.documents[other]? = some old) :
      (store.documents.insert other changed)[id]? = none := by
    refine (Map.getElem?_insert_of_ne ?_).trans absent
    rintro rfl
    rw [found] at absent
    cases absent
  cases changes with
  | documentMade read fresh =>
      refine (Map.getElem?_insert_of_ne ?_).trans absent
      rintro rfl
      exact unmade _ rfl
  | documentChanged read sets found => exact replaced found
  | documentDeleted found =>
      rw [Option.eq_none_iff_forall_ne_some]
      intro document looked
      have before := (Map.getElem?_erase_eq_some.1 looked).2
      rw [absent] at before
      cases before
  | documentHalfChanged unread found => exact replaced found
  | _ => exact absent

/-- A guest that is known has been known or has just been minted. -/
private theorem guest_from (changes : Change store moment operation outcome after)
    (known : after.guests[guest]? = some record) :
    store.guests[guest]? = some record ∨
      operation.hosted? outcome = some (guest, record.documentId) := by
  cases changes with
  | documentDeleted found => exact .inl (Map.getElem?_filter_eq_some.1 known).1
  | guestMade read found fresh unheld =>
      rcases Map.getElem?_insert_eq_some known with ⟨rfl, rfl⟩ | ⟨_, unchanged⟩
      · exact .inr rfl
      · exact .inl unchanged
  | _ => exact .inl known

/-- A guest is minted for a document that is there, under an identifier that no guest has. -/
theorem of_hosted (changes : Change store moment operation outcome after)
    (hosts : operation.hosted? outcome = some (guest, id)) :
    (∃ document, store.documents[id]? = some document) ∧ store.guests[guest]? = none ∧
      ∃ now record, moment.clock.now? = some now ∧ operation.minted? now outcome = some record ∧
        record.id = guest ∧ record.documentId = id ∧ after.guests[guest]? = some record := by
  obtain ⟨⟨value, done⟩, writes⟩ := Action.isWrite_of_hosted? hosts
  cases changes with
  | @guestMade creator id level document now read found fresh unheld =>
      cases hosts
      exact ⟨⟨document, found⟩, fresh, now, _, read, rfl, rfl, rfl,
        Std.ExtTreeMap.getElem?_insert_self⟩
  | refused => cases done
  | answered reads =>
      rw [reads] at writes
      cases writes
  | brokenOff unread => cases done
  | _ => cases hosts

/-- What is made anew has its owner and nobody else: no row has referred to it before. -/
private theorem alone_of_made (intact : store.Integrity)
    (changes : Change store moment operation outcome after) {creator : UserId}
    (makes : operation.made? outcome = some (creator, id)) :
    ∃ now, moment.clock.now? = some now ∧
      (after.contents.permissions.filter fun row => row.documentId = id) =
        [.ofOwner creator id now] ∧
      (after.contents.guests.filter fun guest => guest.documentId = id) = [] := by
  have intact' := intact.change changes
  obtain ⟨⟨value, done⟩, writes⟩ := Action.isWrite_of_made? makes
  cases changes with
  | @documentMade maker fields now read fresh =>
      cases makes
      refine ⟨now, read, ?_, ?_⟩
      · refine filter_eq_singleton intact'.consistent.permissions_nodup
          (Map.mem_values.2 ⟨_, Std.ExtTreeMap.getElem?_insert_self⟩) (decide_eq_true rfl) ?_
        intro other member on
        obtain ⟨key, held⟩ := Map.mem_values.1 member
        rcases Map.getElem?_insert_eq_some held with ⟨rfl, rfl⟩ | ⟨_, before⟩
        · rfl
        · obtain ⟨document, found⟩ := intact.permission_document key other before
          have named := congrArg PermissionKey.document (intact.permission_key key other before)
          rw [← named.symm.trans (of_decide_eq_true on), found] at fresh
          cases fresh
      · refine List.filter_eq_nil_iff.2 fun guest member on => ?_
        obtain ⟨name, known⟩ := Map.mem_values.1 member
        obtain ⟨document, found⟩ := intact.guest_document name guest known
        rw [of_decide_eq_true on, fresh] at found
        cases found
  | refused => cases done
  | answered reads =>
      rw [reads] at writes
      cases writes
  | brokenOff unread => cases done
  | _ => cases makes

end Change

/-! ## Answers -/

theorem step_missing (intact : store.Integrity) (live : store.poisoned = false)
    (absent : store.documents[id]? = none) (needs : operation.needs? = some id)
    (moment : Moment) : (store.step moment operation).1.errorKind? = some .notFound := by
  have missing : store.documents.contains id = false := Map.contains_eq_false_iff.2 absent
  have unheld (principal : PrincipalId) :
      store.permissions.contains (⟨principal, id⟩ : PermissionKey) = false :=
    intact.unheld missing
  cases operation with
  | getDocument other =>
      cases needs
      simp [step, locked, live, answer, absent, found]
  | updateDocument other fields =>
      obtain ⟨sets, same⟩ := Option.ite_none_left_eq_some.1 needs
      cases same
      simp [step, locked, live, sets, updateDocument, absent]
  | deleteDocument other =>
      cases needs
      simp [step, locked, live, deleteDocument, missing]
  | upsertUser user other level =>
      cases needs
      simp [step, locked, live, upsertUser, missing]
  | getPermission other principal =>
      cases needs
      have none := Map.contains_eq_false_iff.1 (unheld principal)
      simp [step, locked, live, answer, getPermission, none, found]
  | deletePermission principal other =>
      cases needs
      simp [step, locked, live, deletePermission, unheld]
  | listPermissions other listing =>
      obtain ⟨valid, same⟩ := Option.ite_none_right_eq_some.1 needs
      cases same
      cases checked : listing.validate with
      | error failure => simp [checked, Except.toBool] at valid
      | ok filter =>
          simp [step, checked, locked, live, answer, listPermissions, missing]
  | _ => cases needs

end MemoryStore

namespace StoreKind.Models

variable {kind : StoreKind} {store : kind.State} {maps : MemoryStore} {moment : Moment}
  {id : DocumentId} {guest : GuestId} {level : PermissionLevel}

theorem agrees_failed (models : kind.Models store maps) {operation : Operation α}
    {failure : ErrorKind} (failed : (maps.step moment operation).1.errorKind? = some failure)
    (timely : operation.isClocked = true → moment.isReadable = true)
    (unclash : operation.isClash moment maps.contents = false)
    (whole : operation.hasWholeCursor = true) :
    (Store.step store moment operation).1.errorKind? = some failure := by
  have ends : (maps.step moment operation).1 ≠ .aborted := by
    intro aborts
    rw [aborts] at failed
    cases failed
  rw [(models.agrees timely unclash whole ends).errorKind?_eq, failed]

/-- What needs a document that is not there finds nothing, in a store of either kind. -/
private theorem notFound (models : kind.Models store maps) (live : maps.poisoned = false)
    (absent : maps.documents[id]? = none) {operation : Operation α}
    (needs : operation.needs? = some id)
    (timely : operation.isClocked = true → moment.isReadable = true) :
    (Store.step store moment operation).1.errorKind? = some .notFound := by
  have failed := MemoryStore.step_missing models.intact live absent needs moment
  cases operation with
  | listPermissions other listing =>
      -- The time of the cursor, which the kinds see differently, plays no part.
      obtain ⟨valid, same⟩ := Option.ite_none_right_eq_some.1 needs
      cases same
      have missing : (Scope.document id).missing? maps.contents = some (.documentNotFound id) := by
        have unstored := Map.any_values models.intact.document_id id
        rw [Map.contains_eq_false_iff.2 absent] at unstored
        exact if_neg (Bool.eq_false_iff.1 unstored)
      have answered := congrArg Prod.fst (models.step_list live (.document id) listing moment)
      cases checked : listing.validate with
      | error failure => simp [checked, Except.toBool] at valid
      | ok filter =>
          rw [Scope.answer, checked, missing] at answered
          exact congrArg Outcome.errorKind? answered
  | listDocuments principal listing => cases needs
  | createGuest creator other level => cases needs
  | _ => exact models.agrees_failed failed timely rfl rfl

private theorem getGuest_notFound (models : kind.Models store maps) (live : maps.poisoned = false)
    (unknown : maps.guests[guest]? = none) (moment : Moment) :
    (Store.step store moment (.getGuest guest)).1.errorKind? = some .notFound := by
  rw [(models.getGuest live moment guest).errorKind?_eq, unknown]
  rfl

theorem updateGuest_notFound (models : kind.Models store maps) (live : maps.poisoned = false)
    (unheld : maps.guestPermission? guest = none) (readable : moment.isReadable = true) :
    (Store.step store moment (.updateGuest guest level)).1.errorKind? = some .notFound := by
  refine models.agrees_failed ?_ (fun _ => readable) rfl rfl
  simp only [MemoryStore.step, MemoryStore.locked, live, MemoryStore.updateGuest, unheld]
  rfl

end StoreKind.Models

/-! ## Runs -/

/-- A document has been deleted, and since then none of its identifier has been made. -/
def Gone (id : DocumentId) (events : List Event) : Prop :=
  ∃ earlier deletion since, events = earlier ++ deletion :: since ∧
    deletion.deleted? = some id ∧ ∀ event ∈ since, ∀ creator, event.made? ≠ some (creator, id)

/-- A guest has been minted for a document, and since then for no other. -/
def MintedFor (guest : GuestId) (id : DocumentId) (events : List Event) : Prop :=
  ∃ earlier minting since, events = earlier ++ minting :: since ∧
    minting.hosted? = some (guest, id) ∧
    ∀ event ∈ since, ∀ other, event.hosted? = some (guest, other) → other = id

variable {maps after : MemoryStore} {event : Event} {events : List Event} {id : DocumentId}
  {guest : GuestId}

theorem Event.Leads.minted_of_hosted (leads : event.Leads maps after)
    (hosts : event.hosted? = some (guest, id)) :
    ∃ record, event.minted? = some record ∧ record.id = guest ∧ record.documentId = id ∧
      after.guests[guest]? = some record := by
  obtain ⟨-, -, now, record, read, mints, named, on, known⟩ := leads.changes.of_hosted hosts
  exact ⟨record, Option.bind_eq_some_iff.2 ⟨now, read, mints⟩, named, on, known⟩

namespace MemoryStore.Course

private theorem absent_of_gone (course : maps.Course events after) (gone : Gone id events) :
    after.documents[id]? = none := by
  obtain ⟨earlier, deletion, since, rfl, deletes, unmade⟩ := gone
  refine course.since_event (fun maps => maps.documents[id]? = none)
    (fun leads => leads.changes.absent_of_deleted deletes) ?_
  intro event member maps after leads absent
  exact leads.changes.stays_absent absent (unmade event member)

private theorem document_of_mintedFor (course : maps.Course events after)
    (minted : MintedFor guest id events) :
    ∀ record, after.guests[guest]? = some record → record.documentId = id := by
  obtain ⟨earlier, minting, since, rfl, hosts, nowhere⟩ := minted
  refine course.since_event (fun maps => ∀ record, maps.guests[guest]? = some record →
    record.documentId = id) ?_ ?_
  · intro maps after leads record known
    obtain ⟨minted, -, -, on, recorded⟩ := leads.minted_of_hosted hosts
    cases recorded.symm.trans known
    exact on
  · intro event member maps after leads only record known
    rcases leads.changes.guest_from known with before | elsewhere
    · exact only record before
    · exact nowhere event member _ elsewhere

end MemoryStore.Course

theorem Scope.document_of_mem_rows {contents : Contents} {principal : PrincipalId}
    {row : DocumentPermission} (member : row ∈ (Scope.principal principal).rows contents) :
    row.document ∈ contents.documents := by
  obtain ⟨permission, -, read⟩ := List.mem_filterMap.1 member
  rw [Option.ite_none_right_eq_some, Option.map_eq_some_iff] at read
  obtain ⟨-, document, found, rfl⟩ := read
  exact List.mem_of_find?_eq_some found

/-- What a store says of a document that is gone after some events, and how it comes back. Only
to tell that it is gone, the lock may not have been poisoned. -/
structure LeavesNoTrace (kind : StoreKind) (store : kind.State) (events : List Event)
    (id : DocumentId) : Prop where
  notFound {α : Type} (operation : Operation α) (moment : Moment) : ¬ kind.Broken store →
    operation.needs? = some id → (operation.isClocked = true → moment.isReadable = true) →
      (Store.step store moment operation).1.errorKind? = some .notFound
  unlisted (principal : PrincipalId) (listing : Listing) (moment : Moment)
    (page : Page DocumentPermission) :
    (Store.step store moment (.listDocuments principal listing)).1 = .ok page →
      ∀ row ∈ page.items, row.document.id ≠ id
  unhosted (creator : PrincipalId) (level : PermissionLevel) (moment : Moment) (guest : GuestId) :
    (Store.step store moment (.createGuest creator id level)).1 ≠ .ok guest
  guests (guest : GuestId) : ¬ kind.Broken store → MintedFor guest id events → ∀ moment : Moment,
    (Store.step store moment (.getGuest guest)).1.errorKind? = some .notFound ∧
      (moment.isReadable = true → ∀ level,
        (Store.step store moment (.updateGuest guest level)).1.errorKind? = some .notFound)
  reborn (creator : UserId) (fields : DocumentFields) (moment : Moment) :
    (Store.step store moment (.createDocument creator fields)).1 = .ok id →
      ∃ now contents, moment.clock.now? = some now ∧
        InspectedStore.contents (Store.step store moment (.createDocument creator fields)).2 =
          .ok contents ∧
        (contents.permissions.filter fun row => row.documentId = id) =
          [.ofOwner creator id now] ∧
        (contents.guests.filter fun guest => guest.documentId = id) = []

/-- A deleted document leaves no trace until it is made again, and nothing of it comes back. -/
theorem deleted_leaves_no_trace {kind : StoreKind} {store : kind.State}
    (new : InspectedStore.isNew store) (history : List Asked) :
    ∃ events, Store.events store history = .ok events ∧ ∀ id, Gone id events →
      LeavesNoTrace kind (Store.after store history) events id := by
  obtain ⟨events, after, recorded, course, models⟩ := (StoreKind.models_new new).course history
  refine ⟨events, recorded, fun id gone => ?_⟩
  have absent := course.absent_of_gone gone
  -- The rows have no document of this identifier, and hence nothing that refers to one.
  refine ⟨?_, ?_, ?_, ?_, ?_⟩
  · intro α operation moment works needs timely
    exact models.notFound (models.works_iff.1 works) absent needs timely
  · intro principal listing moment page answered row member same
    have works : ¬ kind.Broken (Store.after store history) := fun broken =>
      broken.list_ne_ok (.principal principal) listing moment page answered
    have listed := congrArg Prod.fst
      (models.step_list (models.works_iff.1 works) (.principal principal) listing moment)
    have given : (Scope.principal principal).answer after.contents listing
        (kind.seen listing.cursor) = .ok page := listed.symm.trans answered
    obtain ⟨-, -, -, rfl⟩ := Scope.answer_ok_iff.1 given
    rw [StoreKind.page_eq] at member
    have ahead := StoreKind.mem_ahead.1 (List.mem_of_mem_take member)
    have stored := Scope.document_of_mem_rows (Scope.mem_rows_of_listed ahead.1)
    obtain ⟨name, found⟩ := Map.mem_values.1 stored
    rw [← models.intact.document_id name _ found, same] at found
    rw [absent] at found
    cases found
  · intro creator level moment guest minted
    obtain ⟨after', changes, -⟩ := models.step moment (.createGuest creator id level)
    rw [minted] at changes
    obtain ⟨⟨document, found⟩, -⟩ := changes.of_hosted rfl
    rw [absent] at found
    cases found
  · intro guest works minted moment
    have live := models.works_iff.1 works
    have unknown : after.guests[guest]? = none := by
      rw [Option.eq_none_iff_forall_ne_some]
      intro record known
      obtain ⟨document, found⟩ := models.intact.guest_document guest record known
      rw [course.document_of_mintedFor minted record known, absent] at found
      cases found
    refine ⟨models.getGuest_notFound live unknown moment, fun readable level => ?_⟩
    refine models.updateGuest_notFound live ?_ readable
    rw [MemoryStore.guestPermission?, unknown]
  · intro creator fields moment made
    obtain ⟨after', changes, models'⟩ := models.step moment (.createDocument creator fields)
    rw [made] at changes
    obtain ⟨now, read, owner, guests⟩ := changes.alone_of_made models.intact rfl
    exact ⟨now, after'.contents, read, models'.contents_eq, owner, guests⟩

/-- The document of the short history is deleted, and another user makes one in its place. -/
theorem nothing_left_of_deleted :
    let history := shortHistory ++ [
      ⟨Unit, .ofNumbers 4 4, .deleteDocument ⟨.ofNat 1⟩⟩,
      ⟨DocumentId, .ofNumbers 5 5, .createDocument ⟨.ofNat 8⟩ {}⟩]
    let store := Store.after MemoryStore.empty history
    let remaking : Operation DocumentId := .createDocument ⟨.ofNat 9⟩ {}
    let remade := (store.step (.ofNumbers 7 1) remaking).2
    (store.step (.ofNumbers 6 6) (.getPermission ⟨.ofNat 1⟩ ⟨.ofNat 8⟩)).1.errorKind? =
        some .notFound ∧
      (store.step (.ofNumbers 7 1) remaking).1 = .ok ⟨.ofNat 1⟩ ∧
      (remade.contents.permissions.filter fun row => row.documentId = ⟨.ofNat 1⟩) =
        [.ofOwner ⟨.ofNat 9⟩ ⟨.ofNat 1⟩ ⟨7, 0, by decide, by decide⟩] ∧
      (remade.contents.guests.filter fun guest => guest.documentId = ⟨.ofNat 1⟩) = [] := by
  intro history store remaking remade
  have works : ¬ store.poisoned = true := by decide +kernel
  obtain ⟨events, recorded, traces⟩ :=
    @deleted_leaves_no_trace .memory MemoryStore.empty rfl history
  have shows : (Store.events MemoryStore.empty history).toOption.map (List.map fun event =>
      (event.deleted?, event.made?)) = some ([(none, some (⟨.ofNat 7⟩, ⟨.ofNat 1⟩)), (none, none),
        (none, none)] ++ [(some ⟨.ofNat 1⟩, none), (none, some (⟨.ofNat 8⟩, ⟨.ofNat 5⟩))]) := by
    decide +kernel
  have read : Store.events MemoryStore.empty history = .ok events := recorded
  rw [read] at shows
  obtain ⟨earlier, rest, rfl, -, ends⟩ := List.map_eq_append_iff.1 (Option.some.inj shows)
  obtain ⟨deletion, rest, rfl, deletes, later⟩ := List.map_eq_cons_iff.1 ends
  obtain ⟨creation, rest, rfl, makes, none⟩ := List.map_eq_cons_iff.1 later
  obtain rfl := List.map_eq_nil_iff.1 none
  have gone : Gone ⟨.ofNat 1⟩ (earlier ++ deletion :: [creation]) := by
    refine ⟨earlier, deletion, [creation], rfl, (Prod.mk.inj deletes).1, ?_⟩
    intro event member creator made
    rw [List.mem_singleton.1 member, (Prod.mk.inj makes).2] at made
    cases made
  have made : (store.step (.ofNumbers 7 1) remaking).1 = .ok ⟨.ofNat 1⟩ := by decide +kernel
  have trace := traces _ gone
  obtain ⟨now, contents, read, held, owner, guests⟩ := trace.reborn _ _ _ made
  cases held
  cases read
  exact ⟨trace.notFound _ _ works rfl (fun _ => rfl), made, owner, guests⟩

/-- A store in memory whose lock has been poisoned says so, and not that the document is gone. In
tables an operation that cannot read the clock says that. -/
theorem deleted_not_told :
    let making : List Asked := [⟨DocumentId, .ofNumbers 1000 1, .createDocument ⟨.ofNat 7⟩ {}⟩]
    let deleting : Operation Unit := .deleteDocument ⟨.ofNat 1⟩
    let maps := (Store.after MemoryStore.empty making).step (.ofNumbers 1001 2) deleting
    let broken := maps.2.step (.ofNumbers (-1) 3) (.createDocument ⟨.ofNat 7⟩ {})
    let tables := (Store.after (⟨(TableStore.newTables default).database, false⟩ : TableStore)
      making).step (.ofNumbers 1001 2) deleting
    (maps.1 = .ok () ∧ broken.1 = .aborted ∧
        (broken.2.step (.ofNumbers 2000 4) (.getDocument ⟨.ofNat 1⟩)).1 =
          .error (.repository "get document" .poisoned)) ∧
      tables.1 = .ok () ∧ (tables.2.step (.ofNumbers (-1) 3)
        (.upsertUser ⟨.ofNat 7⟩ ⟨.ofNat 1⟩ .viewer)).1.errorKind? ≠ some .notFound := by
  decide +kernel

end DocAccess
