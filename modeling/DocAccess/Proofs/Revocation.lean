import DocAccess.Proofs.Deletion
import DocAccess.Proofs.Provenance

/-!
# Guests whose permission is taken away

The record of a guest is as it was minted for as long as its document is there. Since the record
stands in the way of another guest of its identifier, a permission that the guest has lost is not
given to it again, though a user of the same identifier may be given one.
-/

set_option autoImplicit false

namespace DocAccess

variable {α : Type} {maps after : MemoryStore} {guest : Guest}

/-! ## Changes -/

namespace MemoryStore.Change

variable {store : MemoryStore} {moment : Moment} {operation : Operation α} {outcome : Outcome α}

/-- The record of a guest stays as it is, unless its document is deleted. -/
theorem guest_stays (changes : Change store moment operation outcome after) {id : GuestId}
    (known : store.guests[id]? = some guest) :
    operation.deleted? outcome = some guest.documentId ∨ after.guests[id]? = some guest := by
  cases changes with
  | @documentDeleted document _ found =>
      by_cases on : guest.documentId = document
      · exact .inl (on ▸ rfl)
      · exact .inr (Map.getElem?_filter_eq_some.2 ⟨known, decide_eq_true on⟩)
  | guestMade read found fresh unheld =>
      refine .inr ((Map.getElem?_insert_of_ne ?_).trans known)
      rintro rfl
      rw [fresh] at known
      cases known
  | _ => exact .inr known

/-- A guest's permission has been one before, or it is that of a guest that was not known. -/
private theorem guest_row (changes : Change store moment operation outcome after)
    {key : PermissionKey}
    {permission : Permission} (held : after.permissions[key]? = some permission)
    (byGuest : permission.recipientType = .guest) :
    (∃ before, store.permissions[key]? = some before ∧ before.recipientType = .guest) ∨
      store.guests[(⟨key.recipient.uuid⟩ : GuestId)]? = none := by
  have replaced {other : PermissionKey} {old row : Permission}
      (looked : (store.permissions.insert other row)[key]? = some permission)
      (before : store.permissions[other]? = some old)
      (same : row.recipientType = old.recipientType) :
      ∃ before, store.permissions[key]? = some before ∧ before.recipientType = .guest := by
    rcases Map.getElem?_insert_eq_some looked with ⟨rfl, rfl⟩ | ⟨_, unchanged⟩
    · exact ⟨old, before, same.symm.trans byGuest⟩
    · exact ⟨permission, unchanged, byGuest⟩
  cases changes with
  | documentMade read fresh =>
      rcases Map.getElem?_insert_eq_some held with ⟨rfl, rfl⟩ | ⟨_, unchanged⟩
      · cases byGuest
      · exact .inl ⟨permission, unchanged, byGuest⟩
  | documentDeleted found =>
      exact .inl ⟨permission, (Map.getElem?_filter_eq_some.1 held).1, byGuest⟩
  | userAdded read found fresh =>
      rcases Map.getElem?_insert_eq_some held with ⟨rfl, rfl⟩ | ⟨_, unchanged⟩
      · cases byGuest
      · exact .inl ⟨permission, unchanged, byGuest⟩
  | userChanged read found before byUser => exact .inl (replaced held before rfl)
  | guestChanged read found before byGuest => exact .inl (replaced held before rfl)
  | permissionDeleted before =>
      exact .inl ⟨permission, (Map.getElem?_erase_eq_some.1 held).2, byGuest⟩
  | guestMade read found fresh unheld =>
      rcases Map.getElem?_insert_eq_some held with ⟨rfl, rfl⟩ | ⟨_, unchanged⟩
      · exact .inr fresh
      · exact .inl ⟨permission, unchanged, byGuest⟩
  | guestHalfChanged unread found before => exact .inl (replaced held before rfl)
  | _ => exact .inl ⟨permission, held, byGuest⟩

end MemoryStore.Change

/-! ## States -/

/-- The name of the permission that a guest is minted with. -/
def Guest.key (guest : Guest) : PermissionKey :=
  ⟨.ofGuest guest.id, guest.documentId⟩

/-- A guest that is known and has no permission as a guest. -/
structure MemoryStore.Revoked (maps : MemoryStore) (guest : Guest) : Prop where
  known : maps.guests[guest.id]? = some guest
  lost : ∀ permission, maps.permissions[guest.key]? = some permission →
    permission.recipientType ≠ .guest

namespace MemoryStore.Revoked

theorem change {moment : Moment} {operation : Operation α} {outcome : Outcome α}
    (revoked : maps.Revoked guest) (changes : maps.Change moment operation outcome after)
    (kept : operation.deleted? outcome ≠ some guest.documentId) : after.Revoked guest := by
  constructor
  · exact (changes.guest_stays revoked.known).resolve_left kept
  · intro permission held byGuest
    rcases changes.guest_row held byGuest with ⟨before, held', byGuest'⟩ | unknown
    · exact revoked.lost before held' byGuest'
    · cases revoked.known.symm.trans unknown

private theorem not_guest (intact : maps.Integrity) (revoked : maps.Revoked guest)
    {row : Permission}
    (member : row ∈ maps.contents.permissions) (byGuest : row.recipientType = .guest) :
    row.recipientId ≠ .ofGuest guest.id := by
  intro same
  obtain ⟨⟨recipient, document⟩, held⟩ := Map.mem_values.1 member
  -- Wherever it were, a guest's permission would be on the document of its record.
  obtain ⟨record, known, on, -⟩ := intact.guest_record _ row held byGuest
  have named := congrArg PermissionKey.recipient (intact.permission_key _ row held)
  obtain rfl : recipient = .ofGuest guest.id := named.symm.trans same
  cases revoked.known.symm.trans known
  obtain rfl : guest.documentId = document := on
  exact revoked.lost row held byGuest

private theorem guestPermission?_eq_none (revoked : maps.Revoked guest) :
    maps.guestPermission? guest.id = none := by
  rw [Option.eq_none_iff_forall_ne_some]
  rintro ⟨key, permission⟩ found
  obtain ⟨record, known, rfl, held, byGuest⟩ := guestPermission?_eq_some_iff.1 found
  cases revoked.known.symm.trans known
  exact revoked.lost permission held byGuest

end MemoryStore.Revoked

/-! ## Runs -/

namespace MemoryStore.Course

variable {start : MemoryStore} {earlier since between rest : List Event}
  {minting revocation : Event} {id : GuestId} {document : DocumentId}

theorem known_since (course : start.Course (earlier ++ minting :: since) after)
    (hosts : minting.hosted? = some (id, document))
    (kept : ∀ event ∈ since, event.deleted? ≠ some document) :
    ∃ guest, minting.minted? = some guest ∧ guest.id = id ∧ guest.documentId = document ∧
      after.guests[id]? = some guest := by
  refine course.since_event (fun maps => ∃ guest, minting.minted? = some guest ∧ guest.id = id ∧
    guest.documentId = document ∧ maps.guests[id]? = some guest)
    (fun leads => leads.minted_of_hosted hosts) ?_
  intro event member maps after leads given
  obtain ⟨guest, mints, named, rfl, known⟩ := given
  exact ⟨guest, mints, named, rfl,
    (leads.changes.guest_stays known).resolve_left (kept event member)⟩

private theorem revoked
    (course : start.Course (earlier ++ minting :: between ++ revocation :: rest) after)
    (hosts : minting.hosted? = some (guest.id, guest.documentId))
    (mints : minting.minted? = some guest)
    (kept : ∀ event ∈ between ++ revocation :: rest, event.deleted? ≠ some guest.documentId)
    (takes : revocation.revokes guest.key = true) : after.Revoked guest := by
  obtain ⟨keptBetween, keptLater⟩ := List.forall_mem_append.1 kept
  obtain ⟨keptThen, keptSince⟩ := List.forall_mem_cons.1 keptLater
  -- Up to the revocation the record stays; from then on, the record and the loss.
  obtain ⟨middle, before, later⟩ := course.split
  obtain ⟨same, mints', -, -, known⟩ := before.known_since hosts keptBetween
  cases mints.symm.trans mints'
  cases later with
  | next leads rest =>
      refine rest.keeps (fun maps => maps.Revoked guest) ?_ ⟨?_, ?_⟩
      · intro event member maps after leads revoked
        exact revoked.change leads.changes (keptSince event member)
      · exact (leads.changes.guest_stays known).resolve_left keptThen
      · intro permission held
        -- What takes a permission away has not broken off.
        have ended : revocation.outcome ≠ .aborted := by
          intro aborts
          simp [Event.revokes, aborts, Outcome.value?] at takes
        rw [leads.permission_eq ended, Event.leaves_of_revokes takes] at held
        cases held

end MemoryStore.Course

/-- A store that answers the record of a guest, unless the lock has been poisoned, and mints no
other of its identifier. -/
structure StoreKind.Keeps (kind : StoreKind) (store : kind.State) (guest : Guest) : Prop where
  record (moment : Moment) : ¬ kind.Broken store →
    (Store.step store moment (.getGuest guest.id)).1 = .ok guest
  single (creator : PrincipalId) (id : DocumentId) (level : PermissionLevel) (moment : Moment) :
    (Store.step store moment (.createGuest creator id level)).1 ≠ .ok guest.id

/-- A store in which a guest holds nothing as a guest and cannot be given another level. -/
structure StoreKind.LocksOut (kind : StoreKind) (store : kind.State) (guest : Guest) : Prop where
  unheld : ∃ contents, InspectedStore.contents store = .ok contents ∧
    ∀ row ∈ contents.permissions, row.recipientType = .guest →
      row.recipientId ≠ .ofGuest guest.id
  unchanged (level : PermissionLevel) (moment : Moment) : ¬ kind.Broken store →
    moment.isReadable = true →
      (Store.step store moment (.updateGuest guest.id level)).1.errorKind? = some .notFound

/-- For as long as its document is not deleted, a guest has the record that it was minted with,
and no other guest gets its identifier. Once its permission on the document has been taken away,
there is none for it as a guest on any document. -/
theorem revoked_guest_stays_revoked {kind : StoreKind} {store : kind.State}
    (new : InspectedStore.isNew store) (history : List Asked) :
    ∃ events, Store.events store history = .ok events ∧
      ∀ earlier minting since id document, events = earlier ++ minting :: since →
        minting.hosted? = some (id, document) →
        (∀ event ∈ since, event.deleted? ≠ some document) →
        ∃ guest, minting.minted? = some guest ∧ guest.id = id ∧ guest.documentId = document ∧
          kind.Keeps (Store.after store history) guest ∧
          ∀ between revocation rest, since = between ++ revocation :: rest →
            revocation.revokes guest.key = true →
            kind.LocksOut (Store.after store history) guest := by
  obtain ⟨events, maps, recorded, course, models⟩ := (StoreKind.models_new new).course history
  refine ⟨events, recorded, ?_⟩
  intro earlier minting since id document split hosts kept
  subst split
  obtain ⟨guest, mints, rfl, rfl, known⟩ := course.known_since hosts kept
  refine ⟨guest, mints, rfl, rfl, ⟨?_, ?_⟩, ?_⟩
  · intro moment works
    exact (models.getGuest (models.works_iff.1 works) moment guest.id).eq_ok_iff.2 known
  · intro creator id level moment minted
    obtain ⟨maps', changes, -⟩ := models.step moment (.createGuest creator id level)
    rw [minted] at changes
    obtain ⟨-, fresh, -⟩ := changes.of_hosted rfl
    cases known.symm.trans fresh
  · intro between revocation rest split takes
    subst split
    rw [← List.cons_append, ← List.append_assoc] at course
    have revoked := course.revoked hosts mints kept takes
    refine ⟨⟨maps.contents, models.contents_eq, ?_⟩, ?_⟩
    · intro row member byGuest
      exact revoked.not_guest models.intact member byGuest
    · intro level moment works readable
      exact models.updateGuest_notFound (models.works_iff.1 works)
        revoked.guestPermission?_eq_none readable

/-- The guest of the short history loses its permission, and a user of its identifier gets one in
its place. -/
theorem guest_replaced_by_user :
    let guest : Guest := ⟨⟨.ofNat 2⟩, ⟨.ofNat 1⟩, ⟨.ofNat 7⟩, ⟨2, 0, by decide, by decide⟩⟩
    let history := shortHistory ++ [
      ⟨Unit, .ofNumbers 4 4, .deletePermission ⟨.ofNat 2⟩ ⟨.ofNat 1⟩⟩,
      ⟨Unit, .ofNumbers 5 5, .upsertUser ⟨.ofNat 2⟩ ⟨.ofNat 1⟩ .editor⟩]
    let store := Store.after MemoryStore.empty history
    (store.permissions[guest.key]?.map Permission.recipientType = some .user) ∧
      (∃ record, (store.step (.ofNumbers 6 6) (.getGuest guest.id)).1 = .ok record ∧
        record.documentId = guest.documentId) ∧
      (∀ row ∈ store.contents.permissions, row.recipientType = .guest →
        row.recipientId ≠ .ofGuest guest.id) ∧
      (store.step (.ofNumbers 6 6) (.updateGuest guest.id .viewer)).1.errorKind? =
        some .notFound := by
  intro guest history store
  have works : ¬ store.poisoned = true := by decide +kernel
  obtain ⟨events, recorded, guests⟩ :=
    @revoked_guest_stays_revoked .memory MemoryStore.empty rfl history
  have shows : (Store.events MemoryStore.empty history).toOption.map (List.map fun event =>
      (event.deleted?, event.hosted?, event.revokes guest.key)) = some [(none, none, false),
        (none, some (guest.id, guest.documentId), false), (none, none, false),
        (none, none, true), (none, none, false)] := by
    decide +kernel
  have read : Store.events MemoryStore.empty history = .ok events := recorded
  rw [read] at shows
  obtain ⟨making, rest, rfl, -, shows⟩ := List.map_eq_cons_iff.1 (Option.some.inj shows)
  obtain ⟨minting, rest, rfl, mints, shows⟩ := List.map_eq_cons_iff.1 shows
  obtain ⟨adding, rest, rfl, adds, shows⟩ := List.map_eq_cons_iff.1 shows
  obtain ⟨revocation, rest, rfl, revokes, shows⟩ := List.map_eq_cons_iff.1 shows
  obtain ⟨replacing, rest, rfl, replaces, shows⟩ := List.map_eq_cons_iff.1 shows
  obtain rfl := List.map_eq_nil_iff.1 shows
  simp only [Prod.mk.injEq] at mints adds revokes replaces
  have kept (event : Event) (member : event ∈ [adding, revocation, replacing]) :
      event.deleted? ≠ some guest.documentId := by
    intro deletes
    simp only [List.mem_cons, List.not_mem_nil, or_false] at member
    rcases member with rfl | rfl | rfl
    · cases adds.1.symm.trans deletes
    · cases revokes.1.symm.trans deletes
    · cases replaces.1.symm.trans deletes
  obtain ⟨minted, -, named, on, keeps, locksOut⟩ := guests [making] minting
    [adding, revocation, replacing] guest.id guest.documentId rfl mints.2.1 kept
  have key : minted.key = guest.key := by rw [Guest.key, named, on, Guest.key]
  obtain ⟨⟨contents, held, unheld⟩, unchanged⟩ := locksOut [adding] revocation [replacing] rfl
    (key ▸ revokes.2.2)
  cases held
  have record := keeps.record (.ofNumbers 6 6) works
  rw [named] at record unheld unchanged
  exact ⟨by decide +kernel, ⟨minted, record, on⟩, unheld,
    unchanged .viewer (.ofNumbers 6 6) works rfl⟩

/-- A store in memory whose lock has been poisoned does not tell the record of a guest. In tables
a change of a guest that cannot read the clock says that, and not that the guest has no
permission. -/
theorem guest_not_told :
    let making : List Asked := [⟨DocumentId, .ofNumbers 1000 1, .createDocument ⟨.ofNat 7⟩ {}⟩]
    let minting : Operation GuestId := .createGuest ⟨.ofNat 7⟩ ⟨.ofNat 1⟩ .viewer
    let maps := (Store.after MemoryStore.empty making).step (.ofNumbers 1001 2) minting
    let broken := maps.2.step (.ofNumbers (-1) 3) (.createDocument ⟨.ofNat 7⟩ {})
    let tables := (Store.after (⟨(TableStore.newTables default).database, false⟩ : TableStore)
      making).step (.ofNumbers 1001 2) minting
    let revoked := tables.2.step (.ofNumbers 1002 3) (.deletePermission ⟨.ofNat 2⟩ ⟨.ofNat 1⟩)
    (maps.1 = .ok ⟨.ofNat 2⟩ ∧ broken.1 = .aborted ∧
        (broken.2.step (.ofNumbers 2000 4) (.getGuest ⟨.ofNat 2⟩)).1 =
          .error (.repository "get guest" .poisoned)) ∧
      tables.1 = .ok ⟨.ofNat 2⟩ ∧ revoked.1 = .ok () ∧
      (revoked.2.step (.ofNumbers (-1) 4) (.updateGuest ⟨.ofNat 2⟩ .editor)).1.errorKind? ≠
        some .notFound := by
  decide +kernel

end DocAccess
