import DocAccess.Proofs.Calls

/-!
# What has happened

A run as the list of its operations, each with the rows that it found, its moment and how it
ended. A store of either kind has come to its rows by these events, one change of the maps for
each. What one event starts and no later one ends still holds after the run.
-/

set_option autoImplicit false

namespace DocAccess

variable {α : Type}

/-- An operation that has been asked: the rows before it, and how it ended. -/
structure Event where
  Answer : Type
  before : Contents
  moment : Moment
  operation : Operation Answer
  outcome : Outcome Answer

/-- All that happens to a store which is asked a history, if its rows can be read all the time. -/
def Store.events {σ : Type} [InspectedStore σ] :
    σ → List Asked → Except Relational.DatabaseError (List Event)
  | _, [] => .ok []
  | store, asked :: later =>
      let (outcome, after) := Store.step store asked.moment asked.operation
      match InspectedStore.contents store, events after later with
      | .ok before, .ok rest =>
          .ok (⟨asked.Answer, before, asked.moment, asked.operation, outcome⟩ :: rest)
      | .error error, _ => .error error
      | _, .error error => .error error

/-! ## What an operation has done -/

def Outcome.value? : Outcome α → Option α
  | .ok value => some value
  | _ => none

namespace Action

/-- The guest that an operation has minted, and for which document. -/
def hosted? : Operation α → Outcome α → Option (GuestId × DocumentId)
  | .createGuest _ id _, .ok guest => some (guest, id)
  | _, _ => none

/-- The record of that guest, if it was minted at a reading of the clock. -/
def minted? (now : Timestamp) : Operation α → Outcome α → Option Guest
  | .createGuest creator id _, .ok guest => some ⟨guest, id, creator, now⟩
  | _, _ => none

theorem isWrite_of_hosted? {operation : Operation α} {outcome : Outcome α}
    {hosted : GuestId × DocumentId} (hosts : operation.hosted? outcome = some hosted) :
    (∃ value, outcome = .ok value) ∧ operation.isWrite = true := by
  cases operation with
  | createGuest creator id level =>
      cases outcome with
      | ok guest => exact ⟨⟨guest, rfl⟩, rfl⟩
      | error failure => cases hosts
      | aborted => cases hosts
  | _ => cases hosts

end Action

namespace Event

/-- For whom an event has made a document, and which. -/
def made? (event : Event) : Option (UserId × DocumentId) :=
  event.operation.made? event.outcome

def deleted? (event : Event) : Option DocumentId :=
  event.operation.deleted? event.outcome

def hosted? (event : Event) : Option (GuestId × DocumentId) :=
  event.operation.hosted? event.outcome

/-- The guest that an event has minted, as its record says. -/
def minted? (event : Event) : Option Guest :=
  event.moment.clock.now?.bind fun now => event.operation.minted? now event.outcome

/-- An event as a change of the maps of a store. -/
structure Leads (event : Event) (maps after : MemoryStore) : Prop where
  intact : maps.Integrity
  found : event.before = maps.contents
  changes : maps.Change event.moment event.operation event.outcome after

end Event

/-! ## Courses -/

/-- The maps of a store before and after some events. -/
inductive MemoryStore.Course : MemoryStore → List Event → MemoryStore → Prop where
  | done {maps : MemoryStore} : Course maps [] maps
  | next {event : Event} {events : List Event} {maps middle after : MemoryStore}
      (leads : event.Leads maps middle) (rest : Course middle events after) :
      Course maps (event :: events) after

namespace MemoryStore.Course

variable {maps after : MemoryStore} {events earlier since : List Event} {event : Event}

theorem split (course : maps.Course (earlier ++ since) after) :
    ∃ middle : MemoryStore, maps.Course earlier middle ∧ middle.Course since after := by
  induction earlier generalizing maps with
  | nil => exact ⟨maps, .done, course⟩
  | cons event earlier ih =>
      cases course with
      | next leads rest =>
          obtain ⟨middle, first, second⟩ := ih rest
          exact ⟨middle, .next leads first, second⟩

theorem keeps (holds : MemoryStore → Prop) (course : maps.Course events after)
    (kept : ∀ event ∈ events, ∀ {maps after : MemoryStore}, event.Leads maps after →
      holds maps → holds after)
    (start : holds maps) : holds after := by
  induction course with
  | done => exact start
  | next leads rest ih =>
      obtain ⟨first, others⟩ := List.forall_mem_cons.1 kept
      exact ih others (first leads start)

/-- What one event starts and none after it ends. -/
theorem since_event (holds : MemoryStore → Prop)
    (course : maps.Course (earlier ++ event :: since) after)
    (starts : ∀ {maps after : MemoryStore}, event.Leads maps after → holds after)
    (kept : ∀ event ∈ since, ∀ {maps after : MemoryStore}, event.Leads maps after →
      holds maps → holds after) : holds after := by
  obtain ⟨middle, -, rest⟩ := course.split
  cases rest with
  | next leads later => exact later.keeps holds kept (starts leads)

end MemoryStore.Course

namespace StoreKind.Models

variable {kind : StoreKind} {store : kind.State} {maps : MemoryStore}

/-- A store has come to its rows by what has happened to it. -/
theorem course (models : kind.Models store maps) (history : List Asked) :
    ∃ events after, Store.events store history = .ok events ∧ maps.Course events after ∧
      kind.Models (Store.after store history) after := by
  induction history generalizing store maps with
  | nil => exact ⟨[], maps, rfl, .done, models⟩
  | cons asked history ih =>
      obtain ⟨middle, changes, models'⟩ := models.step asked.moment asked.operation
      obtain ⟨events, after, recorded, course, models''⟩ := ih models'
      refine ⟨⟨asked.Answer, maps.contents, asked.moment, asked.operation, _⟩ :: events, after, ?_,
        .next ⟨models.intact, rfl, changes⟩ course, models''⟩
      simp only [Store.events, models.contents_eq, recorded]

end StoreKind.Models

/-- What breaks off poisons the lock, and the lock is still poisoned at the end. -/
theorem MemoryStore.Course.ends_of_live {maps after : MemoryStore} {events : List Event}
    (course : maps.Course events after) (live : after.poisoned = false) :
    maps.poisoned = false ∧ ∀ event ∈ events, event.outcome ≠ .aborted := by
  induction course with
  | done => exact ⟨live, fun event member => absurd member List.not_mem_nil⟩
  | @next event events maps middle after leads rest ih =>
      obtain ⟨live', ends⟩ := ih live
      have first : event.outcome ≠ .aborted := by
        intro aborts
        rw [leads.changes.poisons aborts] at live'
        cases live'
      exact ⟨(leads.changes.poisoned first).symm.trans live', List.forall_mem_cons.2 ⟨first, ends⟩⟩

theorem MemoryStore.Change.ends_of_readable {maps after : MemoryStore} {moment : Moment}
    {operation : Operation α} {outcome : Outcome α}
    (changes : maps.Change moment operation outcome after)
    (readable : moment.isReadable = true) : outcome ≠ .aborted := by
  intro aborts
  have read : moment.clock.now? ≠ none := Option.isSome_iff_ne_none.1 readable
  cases changes with
  | brokenOff unread => exact read unread
  | documentHalfChanged unread found => exact read unread
  | guestHalfChanged unread found held => exact read unread
  | _ => cases aborts

/-- So long as the clock can be read no lock is poisoned. -/
private theorem StoreKind.Models.works_after {kind : StoreKind} {store : kind.State}
    {maps : MemoryStore}
    (models : kind.Models store maps) (works : ¬ kind.Broken store) {history : List Asked}
    (readable : ∀ asked ∈ history, asked.moment.isReadable = true) :
    ¬ kind.Broken (Store.after store history) := by
  induction history generalizing store maps with
  | nil => exact works
  | cons asked history ih =>
      obtain ⟨first, others⟩ := List.forall_mem_cons.1 readable
      obtain ⟨middle, changes, models'⟩ := models.step asked.moment asked.operation
      have live := models.works_iff.1 works
      have live' := (changes.poisoned (changes.ends_of_readable first)).trans live
      exact ih models' (models'.works_iff.2 live') others

theorem StoreKind.works_of_readable {kind : StoreKind} {store : kind.State}
    (new : InspectedStore.isNew store) {history : List Asked}
    (readable : ∀ asked ∈ history, asked.moment.isReadable = true) :
    ¬ kind.Broken (Store.after store history) :=
  (models_new new).works_after ((models_new new).works_iff.2 rfl) readable

end DocAccess
