import DocAccess.Proofs.Testing.Sessions

/-!
# Sessions under way

What one call leaves of a session whose supplies are sound: its store has the rows of a sound
store in memory, and these name nothing but what is in use and carry no time but those that
have been read. So the session can go on for one call less.
-/

set_option autoImplicit false

namespace DocAccess

variable {α : Type}

/-! ## Identifiers in use -/

/-- Whether an operation takes a new identifier. -/
def Action.takesId : Operation α → Bool
  | .createDocument _ _ => true
  | .createGuest _ _ _ => true
  | _ => false

/-- The user to whom an operation gives a permission. -/
def Action.grantee? : Operation α → Option UserId
  | .createDocument creator _ => some creator
  | .upsertUser user _ _ => some user
  | _ => none

theorem StoreKind.takesId_of_draws {kind : StoreKind} {store : kind.State}
    {operation : Operation α} (draws : Store.draws store operation = true) :
    operation.takesId = true := by
  cases operation with
  | createDocument creator fields => rfl
  | createGuest creator document level => rfl
  | _ => cases kind <;> cases draws

namespace MemoryStore

/-- Whether maps name only documents, holders of permissions and guests that are in use. -/
structure Names (used : List Uuid) (store : MemoryStore) : Prop where
  document (id : DocumentId) (document : Document) :
    store.documents[id]? = some document → id.uuid ∈ used
  recipient (key : PermissionKey) (permission : Permission) :
    store.permissions[key]? = some permission → key.recipient.uuid ∈ used
  guest (id : GuestId) (guest : Guest) : store.guests[id]? = some guest → id.uuid ∈ used

namespace Names

variable {used more : List Uuid} {store after : MemoryStore} {moment : Moment}
  {operation : Operation α} {outcome : Outcome α}

theorem empty (used : List Uuid) : MemoryStore.empty.Names used := by
  constructor <;> intros <;> simp_all [MemoryStore.empty]

theorem mono (names : store.Names used) (kept : used ⊆ more) : store.Names more where
  document id document found := kept (names.document id document found)
  recipient key permission held := kept (names.recipient key permission held)
  guest id guest known := kept (names.guest id guest known)

theorem document_absent (names : store.Names used) (id : DocumentId) (unused : id.uuid ∉ used) :
    store.documents[id]? = none :=
  Option.eq_none_iff_forall_not_mem.2 fun document found =>
    unused (names.document id document found)

theorem permission_absent (names : store.Names used) (key : PermissionKey)
    (unused : key.recipient.uuid ∉ used) : store.permissions[key]? = none :=
  Option.eq_none_iff_forall_not_mem.2 fun permission held =>
    unused (names.recipient key permission held)

theorem guest_absent (names : store.Names used) (id : GuestId) (unused : id.uuid ∉ used) :
    store.guests[id]? = none :=
  Option.eq_none_iff_forall_not_mem.2 fun guest known => unused (names.guest id guest known)

private theorem insertDocument (names : store.Names used) (id : DocumentId) (inUse : id.uuid ∈ used)
    (document : Document) :
    Names used { store with documents := store.documents.insert id document } where
  __ := names
  document other found looked := by
    rcases Map.getElem?_insert_eq_some looked with ⟨rfl, -⟩ | ⟨-, unchanged⟩
    · exact inUse
    · exact names.document other found unchanged

private theorem insertPermission (names : store.Names used) (key : PermissionKey)
    (inUse : key.recipient.uuid ∈ used) (permission : Permission) :
    Names used { store with permissions := store.permissions.insert key permission } where
  __ := names
  recipient other held looked := by
    rcases Map.getElem?_insert_eq_some looked with ⟨rfl, -⟩ | ⟨-, unchanged⟩
    · exact inUse
    · exact names.recipient other held unchanged

private theorem insertGuest (names : store.Names used) (id : GuestId) (inUse : id.uuid ∈ used)
    (guest : Guest) : Names used { store with guests := store.guests.insert id guest } where
  __ := names
  guest other known looked := by
    rcases Map.getElem?_insert_eq_some looked with ⟨rfl, -⟩ | ⟨-, unchanged⟩
    · exact inUse
    · exact names.guest other known unchanged

/-- An operation brings in no name but the identifier it takes and its grantee. -/
theorem change (names : store.Names used) (changes : store.Change moment operation outcome after)
    (taken : operation.takesId = true → moment.drawn ∈ used)
    (granted : ∀ user ∈ operation.grantee?, user.uuid ∈ used) : after.Names used := by
  cases changes with
  | refused => exact names
  | answered => exact names
  | @documentMade creator fields now read fresh =>
      exact (names.insertDocument ⟨moment.drawn⟩ (taken rfl) _).insertPermission
        ⟨.ofUser creator, ⟨moment.drawn⟩⟩ (granted creator rfl) _
  | documentChanged read sets found => exact names.insertDocument _ (names.document _ _ found) _
  | documentDeleted found =>
      exact {
        document := fun id document looked =>
          names.document id document (Map.getElem?_erase_eq_some.1 looked).2
        recipient := fun key permission looked =>
          names.recipient key permission (Map.getElem?_filter_eq_some.1 looked).1
        guest := fun id guest looked =>
          names.guest id guest (Map.getElem?_filter_eq_some.1 looked).1 }
  | @userAdded user id level document now read found fresh =>
      exact names.insertPermission ⟨.ofUser user, id⟩ (granted user rfl) _
  | userChanged read found held byUser =>
      exact names.insertPermission _ (names.recipient _ _ held) _
  | guestChanged read found held byGuest =>
      exact names.insertPermission _ (names.recipient _ _ held) _
  | permissionDeleted held =>
      exact { names with
        recipient := fun key permission looked =>
          names.recipient key permission (Map.getElem?_erase_eq_some.1 looked).2 }
  | @guestMade creator id level document now read found fresh unheld =>
      exact (names.insertGuest ⟨moment.drawn⟩ (taken rfl) _).insertPermission
        ⟨.ofGuest ⟨moment.drawn⟩, id⟩ (taken rfl) _
  | brokenOff unread => exact { names with }
  | documentHalfChanged unread found =>
      exact { names.insertDocument _ (names.document _ _ found) _ with }
  | guestHalfChanged unread found held =>
      exact { names.insertPermission _ (names.recipient _ _ held) _ with }

end Names
end MemoryStore

/-! ## Calls -/

namespace StoreKind.Models

variable {kind : StoreKind} {store : kind.State} {maps : MemoryStore} {moment : Moment}

/-- While the clock can be read, a store of either kind goes where the maps go. -/
private theorem follow (models : kind.Models store maps) (readable : moment.isReadable = true)
    (operation : Operation α) :
    kind.Models (Store.step store moment operation).2 (maps.step moment operation).2 := by
  cases kind with
  | memory =>
      obtain ⟨rfl, intact⟩ := models
      exact ⟨rfl, intact.step moment operation⟩
  | tables => exact (TableStore.Represents.step models operation fun _ => readable).1

theorem holds (models : kind.Models store maps) (live : maps.poisoned = false)
    (whole : maps.contents.Whole) : kind.Holds store maps.contents := by
  cases kind with
  | memory =>
      obtain ⟨rfl, intact⟩ := models
      exact ⟨intact, whole, live, rfl⟩
  | tables => exact ⟨maps, models, rfl⟩

end StoreKind.Models

namespace Testing

/-- The moment at which the next call of a session is made. -/
def Session.moment {σ : Type} (session : Session σ) : Moment :=
  ⟨session.callTick.atCall session.clock, session.draws.next.1⟩

/-- What a call leaves behind, apart from the record of it. -/
structure Session.Called {σ : Type} [Store σ] (session : Session σ) (operation : Operation α)
    (after : Session σ) : Prop where
  store_eq : after.store = (Store.step session.store session.moment operation).2
  clock_eq : after.clock = session.callTick.afterCall session.clock
  callTick_eq : after.callTick = session.callTick.later
  draws_eq : after.draws =
    if Store.draws session.store operation then session.draws.next.2 else session.draws
  injected_eq : after.injected = none

private theorem Run.call_eq {σ : Type} [Store σ] {session : Session σ}
    (clear : session.injected = none) (operation : Operation α) :
    ∃ after, Run.call operation session =
        ((Store.step session.store session.moment operation).1, after) ∧
      session.Called operation after := by
  simp only [Run.call, clear, Option.filter_none]
  refine ⟨_, rfl, ?_⟩
  unfold Run.record
  split <;> exact ⟨rfl, rfl, rfl, rfl, rfl⟩

variable {kind : StoreKind}

/-- A session that has come to the rows of some maps and can go on for a number of draws and
calls, at each of which the clock comes by a gap further. -/
structure Session.Underway (session : Session kind.State) (gap : Int) (maps : MemoryStore)
    (used : List Uuid) (ids calls : Nat) : Prop where
  models : kind.Models session.store maps
  live : maps.poisoned = false
  whole : maps.contents.Whole
  clear : session.injected = none
  paced : ∃ last, session.callTick.Paced gap calls last session.clock ∧
    ∀ time, maps.contents.HasTime time → time.nanos ≤ last * 1000
  names : maps.Names used
  apart : (session.draws.take ids ++ used).Nodup
  random : ∀ id ∈ used, id ≠ .max

private theorem Draws.next_ne_max (draws : Draws) : draws.next.1 ≠ .max := by
  unfold next
  cases draws.queue with
  | nil => exact Uuid.asRandom_ne_max _
  | cons id rest => exact id.asRandom_ne_max

namespace Session.Underway

variable {session : Session kind.State} {gap : Int} {maps : MemoryStore} {used : List Uuid}
  {ids calls : Nat} {operation : Operation α}

theorem start (new : InspectedStore.isNew session.store) (clear : session.injected = none)
    {last : Int} (paced : session.callTick.Paced gap calls last session.clock)
    (apart : (session.draws.take ids).Nodup) : session.Underway gap .empty [] ids calls where
  models := StoreKind.models_new new
  live := rfl
  whole time stored := absurd stored (MemoryStore.not_hasTime_empty time)
  clear := clear
  paced := ⟨last, paced, fun time stored => absurd stored (MemoryStore.not_hasTime_empty time)⟩
  names := .empty []
  apart := (List.append_nil _).symm ▸ apart
  random _ member := absurd member List.not_mem_nil

/-- The clock at a call can be read, and shows no less than any time that is stored. -/
theorem exists_now (underway : session.Underway gap maps used ids (calls + 1)) :
    ∃ now, session.moment.clock.now? = some now ∧
      ∀ time, maps.contents.HasTime time → time.nanos + gap * 1000 ≤ now.nanos := by
  obtain ⟨last, ⟨-, stands, -, ahead, -⟩, past⟩ := underway.paced
  obtain ⟨now, read, same⟩ := stands.exists_now
  refine ⟨now, read, fun time stored => ?_⟩
  have := past time stored
  omega

theorem isReadable (underway : session.Underway gap maps used ids (calls + 1)) :
    session.moment.isReadable = true := by
  obtain ⟨now, read, -⟩ := underway.exists_now
  rw [Moment.isReadable, read]
  rfl

theorem unused (underway : session.Underway gap maps used (ids + 1) calls) :
    session.draws.next.1 ∉ used := by
  intro member
  exact (List.nodup_append.1 underway.apart).2.2 _ List.mem_cons_self _ member rfl

/-- The identifier that is drawn counts as used from then on. -/
theorem apart_next (underway : session.Underway gap maps used (ids + 1) calls) :
    (Draws.take ids session.draws.next.2 ++ session.draws.next.1 :: used).Nodup :=
  List.nodup_middle.2 underway.apart

/-- A draw that is not used is no loss. -/
theorem apart_skip (underway : session.Underway gap maps used (ids + 1) calls) :
    (Draws.take ids session.draws.next.2 ++ used).Nodup :=
  (List.nodup_cons.1 underway.apart).2

theorem random_next (underway : session.Underway gap maps used ids calls) :
    ∀ id ∈ session.draws.next.1 :: used, id ≠ .max :=
  List.forall_mem_cons.2 ⟨session.draws.next_ne_max, underway.random⟩

/-- A call keeps a session under way, with the identifiers that are named then. -/
theorem call (underway : session.Underway gap maps used ids (calls + 1)) {used' : List Uuid}
    {ids' : Nat} (names : (maps.step session.moment operation).2.Names used')
    (apart : (Draws.take ids' (if Store.draws session.store operation then session.draws.next.2
      else session.draws) ++ used').Nodup) (random : ∀ id ∈ used', id ≠ .max) :
    ∃ after, Run.call operation session =
        ((Store.step session.store session.moment operation).1, after) ∧
      after.Underway gap (maps.step session.moment operation).2 used' ids' calls := by
  obtain ⟨after, ends, called⟩ := Run.call_eq underway.clear operation
  have changes := MemoryStore.change_step maps session.moment operation
  refine ⟨after, ends, ?_⟩
  exact {
    models := called.store_eq ▸ underway.models.follow underway.isReadable operation
    live := (changes.poisoned (changes.ends_of_readable underway.isReadable)).trans underway.live
    whole := changes.successor.whole underway.whole
    clear := called.injected_eq
    paced := by
      obtain ⟨last, ⟨⟨-, reached⟩, stands, onward, -, paced⟩, past⟩ := underway.paced
      rw [called.callTick_eq, called.clock_eq]
      refine ⟨_, paced, fun time stored => ?_⟩
      rcases changes.successor.hasTime stored with old | read
      · have := past time old
        omega
      · obtain ⟨now, reads, same⟩ := stands.exists_now
        obtain rfl : now = time := Option.some.inj (reads.symm.trans read)
        omega
    names := names
    apart := called.draws_eq ▸ apart
    random := random }

end Session.Underway
end Testing
end DocAccess
