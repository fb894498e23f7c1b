import DocAccess.Proofs.Memory.Locality
import DocAccess.Proofs.Failure

/-!
# Writes that do not interfere

A write leaves the rows of all other documents as they were. Two writes on different
documents can be made in either order: both answer as they do alone, and nobody can tell
afterwards which came first.
-/

set_option autoImplicit false

namespace DocAccess

variable {α : Type}

/-! ## Rows of a document -/

namespace Contents

/-- The rows of a document: its own, the permissions on it and the guests minted for it. -/
def on (rows : Contents) (id : DocumentId) : Contents where
  documents := rows.documents.filter fun document => document.id = id
  permissions := rows.permissions.filter fun permission => permission.documentId = id
  guests := rows.guests.filter fun guest => guest.documentId = id

end Contents

private theorem MemoryStore.SameOn.on_eq {maps other : MemoryStore} {id : DocumentId}
    (same : maps.SameOn id other) (intact : maps.Integrity) (intact' : other.Integrity) :
    maps.contents.on id = other.contents.on id := by
  have documents : (maps.contents.on id).documents = (other.contents.on id).documents := by
    refine Map.filter_values_congr fun key document named => ?_
    have on {stored : DocumentId} (own : document.id = stored) : stored = id :=
      own.symm.trans (of_decide_eq_true named)
    constructor
    · intro found
      obtain rfl := on (intact.document_id key document found)
      exact same.document.symm.trans found
    · intro found
      obtain rfl := on (intact'.document_id key document found)
      exact same.document.trans found
  have permissions : (maps.contents.on id).permissions = (other.contents.on id).permissions := by
    refine Map.filter_values_congr fun key permission named => ?_
    have on (own : permission.key = key) : key.document = id :=
      (congrArg PermissionKey.document own.symm).trans (of_decide_eq_true named)
    obtain ⟨principal, document⟩ := key
    constructor
    · intro held
      obtain rfl := on (intact.permission_key _ permission held)
      exact (same.permission principal).symm.trans held
    · intro held
      obtain rfl := on (intact'.permission_key _ permission held)
      exact (same.permission principal).trans held
  have guests : (maps.contents.on id).guests = (other.contents.on id).guests := by
    refine Map.filter_values_congr fun key guest named => ?_
    exact same.guest key guest (of_decide_eq_true named)
  rw [Contents.mk.injEq]
  exact ⟨documents, permissions, guests⟩

/-! ## Tables -/

namespace TableStore

variable {store other : TableStore} {maps maps' : MemoryStore} {moment : Moment}
  {operation : Operation α}

theorem Represents.outcome_eq (represents : store.Represents maps)
    (represents' : other.Represents maps')
    (timely : operation.isClocked = true → moment.isReadable = true)
    (whole : operation.hasWholeCursor = true)
    (refusals : refusal? maps moment.drawn operation = refusal? maps' moment.drawn operation)
    (outcomes : (maps.step moment operation).1 = (maps'.step moment operation).1) :
    (store.step moment operation).1 = (other.step moment operation).1 := by
  have heeds := represents.heeds operation timely
  have heeds' := represents'.heeds operation timely
  rw [← refusals] at heeds'
  cases refused : refusal? maps moment.drawn operation with
  | some failure =>
      rw [refused] at heeds heeds'
      rw [heeds.eq_error, heeds'.eq_error]
  | none =>
      obtain ⟨value, done⟩ := heeds.exists_ok_iff.2 refused
      obtain ⟨value', done'⟩ := heeds'.exists_ok_iff.2 refused
      have same := (represents.memory_ok timely whole done).symm.trans
        (outcomes.trans (represents'.memory_ok timely whole done'))
      rw [done, done', same]

/-- Tables that hold the same rows answer the same, however they have come to them. -/
private theorem Represents.step_outcome (represents : store.Represents maps)
    (represents' : other.Represents maps) (moment : Moment) (operation : Operation α) :
    (store.step moment operation).1 = (other.step moment operation).1 := by
  have listed {β : Type} (scope : Scope β) (listing : Listing) :
      (store.step moment (scope.list listing)).1 = (other.step moment (scope.list listing)).1 := by
    rw [represents.step_list, represents'.step_list]
  by_cases timely : operation.isClocked = true → moment.isReadable = true
  · cases operation with
    | listPermissions id listing => exact listed (.document id) listing
    | listDocuments principal listing => exact listed (.principal principal) listing
    | _ => exact represents.outcome_eq represents' timely rfl rfl rfl
  · obtain ⟨failure, fails⟩ := step_untimely timely
    rw [fails, fails]

private theorem Represents.answers_eq (represents : store.Represents maps)
    (represents' : other.Represents maps) (later : List Asked) :
    Store.answers store later = Store.answers other later := by
  induction later generalizing store other maps with
  | nil => rfl
  | cons asked later ih =>
      have answered : (Store.step store asked.moment asked.operation).1 =
          (Store.step other asked.moment asked.operation).1 :=
        represents.step_outcome represents' asked.moment asked.operation
      rw [Store.answers, Store.answers, answered]
      refine congrArg _ ?_
      by_cases timely : asked.operation.isClocked = true → asked.moment.isReadable = true
      · exact ih (represents.step asked.operation timely).1
          (represents'.step asked.operation timely).1
      · obtain ⟨failure, fails⟩ := step_untimely timely
        have kept (tables : TableStore) :
            (Store.step tables asked.moment asked.operation).2 = tables :=
          congrArg Prod.snd (fails tables)
        rw [kept store, kept other]
        exact ih represents represents'

end TableStore

private theorem MemoryStore.SameFor.refusal? {maps other : MemoryStore} {drawn : Uuid}
    {operation : Operation α} (same : SameFor drawn operation maps other)
    (intact : maps.Integrity) (writes : operation.isRead = false) :
    TableStore.refusal? maps drawn operation = TableStore.refusal? other drawn operation := by
  cases operation with
  | createDocument creator fields =>
      simp only [TableStore.refusal?, (same.rows _ rfl).contains_document]
  | updateDocument id fields =>
      simp only [TableStore.refusal?, (same.rows _ rfl).contains_document]
  | deleteDocument id =>
      simp only [TableStore.refusal?, (same.rows _ rfl).contains_document]
  | upsertUser user id level =>
      have rows := same.rows id rfl
      simp only [TableStore.refusal?, rows.contains_document, rows.permission]
  | updateGuest guest level =>
      simp only [TableStore.refusal?, same.guestPermission? intact]
  | deletePermission principal id =>
      simp only [TableStore.refusal?, (same.rows _ rfl).contains_permission]
  | createGuest creator id level =>
      have rows := same.rows id rfl
      simp only [TableStore.refusal?, rows.contains_document, rows.contains_permission,
        same.guest _ rfl]
  | _ => cases writes

namespace TableStore

variable {store : TableStore} {maps : MemoryStore} {first second : Asked}

theorem ask_untimely {asked : Asked}
    (untimely : ¬ (asked.operation.isClocked = true → asked.moment.isReadable = true)) :
    ∃ failure, ∀ store : TableStore, Store.ask store asked = (.error failure, store) :=
  step_untimely untimely

private theorem hasWholeCursor_of_isRead {operation : Operation α}
    (writes : operation.isRead = false) : operation.hasWholeCursor = true := by
  cases operation with
  | listPermissions id listing => cases writes
  | listDocuments principal listing => cases writes
  | _ => rfl

/-- A write on tables does not notice another one that comes before it. -/
private theorem Represents.ask_after (represents : store.Represents maps)
    (apart : Apart maps.contents first second) :
    (Store.ask (Store.ask store first).2 second).1 = (Store.ask store second).1 := by
  by_cases timely : first.operation.isClocked = true → first.moment.isReadable = true
  · by_cases timely' : second.operation.isClocked = true → second.moment.isReadable = true
    · have intact := represents.intact
      have same := MemoryStore.unnoticed intact apart
      have represents' := (represents.step first.operation timely).1
      have live : maps.poisoned = (Store.ask maps first).2.poisoned :=
        represents.live.trans represents'.live.symm
      exact (represents.outcome_eq represents' timely' (hasWholeCursor_of_isRead apart.writes.2)
        (same.refusal? intact apart.writes.2)
        (same.step_outcome live intact apart.writes.2)).symm
    · obtain ⟨failure, fails⟩ := ask_untimely timely'
      rw [fails, fails]
  · obtain ⟨failure, fails⟩ := ask_untimely timely
    rw [fails]

/-- In either order the tables come to hold the rows of one store in memory. -/
private theorem Represents.ask_comm (represents : store.Represents maps)
    (apart : Apart maps.contents first second) :
    ∃ after : MemoryStore, (Store.ask (Store.ask store first).2 second).2.Represents after ∧
      (Store.ask (Store.ask store second).2 first).2.Represents after := by
  by_cases timely : first.operation.isClocked = true → first.moment.isReadable = true
  · have one := (represents.step first.operation timely).1
    by_cases timely' : second.operation.isClocked = true → second.moment.isReadable = true
    · have two := (represents.step second.operation timely').1
      have ends {asked : Asked} (live : (Store.ask maps asked).2.poisoned = false) :
          (Store.ask maps asked).1 ≠ .aborted := by
        intro aborts
        have changes := MemoryStore.change_step maps asked.moment asked.operation
        cases live.symm.trans (changes.poisons aborts)
      obtain ⟨-, -, same⟩ := MemoryStore.ask_comm represents.intact apart (ends one.live)
        (ends two.live)
      exact ⟨_, (one.step second.operation timely').1,
        same ▸ (two.step first.operation timely).1⟩
    · obtain ⟨failure, fails⟩ := ask_untimely timely'
      rw [fails, fails]
      exact ⟨_, one, one⟩
  · obtain ⟨failure, fails⟩ := ask_untimely timely
    obtain ⟨after, -, two⟩ := represents.change second.moment second.operation
    rw [fails, fails]
    exact ⟨after, two, two⟩

end TableStore

/-! ## Both kinds -/

/-- Two operations commute on a store: each answers as it does first, and what they leave is in
memory the same and in tables the same rows, so that nobody can tell their order later. -/
structure StoreKind.Commute (kind : StoreKind) (store : kind.State) (first second : Asked) :
    Prop where
  answers : Store.answers store [first, second] = (Store.answers store [second, first]).reverse
  contents : InspectedStore.contents (Store.after store [first, second]) =
    InspectedStore.contents (Store.after store [second, first])
  later (history : List Asked) : Store.answers (Store.after store [first, second]) history =
    Store.answers (Store.after store [second, first]) history
  memory : kind = .memory → Store.after store [first, second] = Store.after store [second, first]

private theorem answers_comm {σ : Type} [Store σ] {store : σ} {first second : Asked}
    (one : (Store.ask (Store.ask store second).2 first).1 = (Store.ask store first).1)
    (two : (Store.ask (Store.ask store first).2 second).1 = (Store.ask store second).1) :
    Store.answers store [first, second] = (Store.answers store [second, first]).reverse := by
  have answers (asked later : Asked) : Store.answers store [asked, later] =
      [⟨_, (Store.ask store asked).1⟩, ⟨_, (Store.ask (Store.ask store asked).2 later).1⟩] := rfl
  rw [answers, answers, one, two]
  rfl

namespace StoreKind.Models

variable {kind : StoreKind} {store : kind.State} {maps : MemoryStore}

theorem frame (models : kind.Models store maps) {asked : Asked} {id : DocumentId}
    (elsewhere : asked.aim? maps.contents ≠ some id) :
    ∃ rows, InspectedStore.contents (Store.ask store asked).2 = .ok rows ∧
      rows.on id = maps.contents.on id := by
  obtain ⟨after, changes, models'⟩ := models.step asked.moment asked.operation
  have same := changes.sameOn models.intact elsewhere
  exact ⟨after.contents, models'.contents_eq, (same.on_eq models.intact models'.intact).symm⟩

theorem commute (models : kind.Models store maps) {first second : Asked}
    (apart : Apart maps.contents first second) (ends : (Store.ask store first).1 ≠ .aborted)
    (ends' : (Store.ask store second).1 ≠ .aborted) : kind.Commute store first second := by
  cases kind with
  | memory =>
      obtain ⟨rfl, intact⟩ := models
      obtain ⟨two, one, same⟩ := MemoryStore.ask_comm intact apart ends ends'
      have after : Store.after store [first, second] = Store.after store [second, first] := same
      exact ⟨answers_comm one two, congrArg _ after, fun history => by rw [after], fun _ => after⟩
  | tables =>
      have represents : TableStore.Represents store maps := models
      obtain ⟨after, one, two⟩ := represents.ask_comm apart
      refine ⟨answers_comm (represents.ask_after apart.symm) (represents.ask_after apart),
        one.contents_eq.trans two.contents_eq.symm, one.answers_eq two, ?_⟩
      intro other
      cases other

end StoreKind.Models

/-- An operation leaves all rows of documents alone that it is not aimed at, in a store of either
kind and even if it breaks off. Two writes on different documents commute unless one of them
breaks off. -/
theorem independent_writes {kind : StoreKind} {store : kind.State}
    (new : InspectedStore.isNew store) (history : List Asked) :
    ∃ rows, InspectedStore.contents (Store.after store history) = .ok rows ∧
      (∀ (asked : Asked) (id : DocumentId), asked.aim? rows ≠ some id →
        ∃ changed, InspectedStore.contents (Store.ask (Store.after store history) asked).2 =
            .ok changed ∧ changed.on id = rows.on id) ∧
      ∀ first second : Asked, Apart rows first second →
        (Store.ask (Store.after store history) first).1 ≠ .aborted →
        (Store.ask (Store.after store history) second).1 ≠ .aborted →
          kind.Commute (Store.after store history) first second := by
  obtain ⟨maps, models⟩ := (StoreKind.models_new new).after history
  refine ⟨maps.contents, models.contents_eq, ?_, ?_⟩
  · intro asked id elsewhere
    exact models.frame elsewhere
  · intro first second apart ends ends'
    exact models.commute apart ends ends'

/-- A guest of one document gets another level while another guest is minted for a second
document. -/
theorem guests_of_two_documents_commute :
    let store := Store.after MemoryStore.empty
      (shortHistory ++ [⟨DocumentId, .ofNumbers 4 4, .createDocument ⟨.ofNat 7⟩ {}⟩])
    let first : Asked := ⟨Unit, .ofNumbers 5 5, .updateGuest ⟨.ofNat 2⟩ .editor⟩
    let second : Asked := ⟨GuestId, .ofNumbers 6 6, .createGuest ⟨.ofNat 7⟩ ⟨.ofNat 4⟩ .viewer⟩
    first.aim? store.contents = some ⟨.ofNat 1⟩ ∧ Apart store.contents first second ∧
      (Store.ask store first).1 = .ok () ∧ (Store.ask store second).1 = .ok ⟨.ofNat 6⟩ ∧
      (Store.ask store first).2.contents.on ⟨.ofNat 4⟩ = store.contents.on ⟨.ofNat 4⟩ ∧
      StoreKind.Commute .memory store first second := by
  intro store first second
  have aims : first.aim? store.contents = some ⟨.ofNat 1⟩ := by decide +kernel
  have elsewhere : first.aim? store.contents ≠ some ⟨.ofNat 4⟩ := by decide +kernel
  have fresh : ∀ record ∈ store.contents.guests, record.id ≠ ⟨.ofNat 6⟩ := by decide +kernel
  have apart : Apart store.contents first second := by
    refine ⟨⟨rfl, rfl⟩, ?_, nofun, ?_⟩
    · rintro id aimed ⟨⟩
      exact elsewhere aimed
    · rintro guest ⟨⟩
      exact ⟨fresh, by decide⟩
  have done : (Store.ask store first).1 = .ok () := by decide +kernel
  have done' : (Store.ask store second).1 = .ok ⟨.ofNat 6⟩ := by decide +kernel
  obtain ⟨-, ⟨⟩, frame, commute⟩ := @independent_writes .memory MemoryStore.empty rfl
    (shortHistory ++ [⟨DocumentId, .ofNumbers 4 4, .createDocument ⟨.ofNat 7⟩ {}⟩])
  obtain ⟨-, ⟨⟩, kept⟩ := frame first ⟨.ofNat 4⟩ elsewhere
  refine ⟨aims, apart, done, done', kept, commute first second apart ?_ ?_⟩
  · intro aborts
    cases done.symm.trans aborts
  · intro aborts
    cases done'.symm.trans aborts

/-- A write that breaks off in memory poisons the lock for all documents: the other write of the
two succeeds before it and fails after it. -/
theorem broken_off_write_noticed :
    let store := Store.after MemoryStore.empty [
      ⟨DocumentId, .ofNumbers 1000 1, .createDocument ⟨.ofNat 7⟩ {}⟩,
      ⟨DocumentId, .ofNumbers 1001 2, .createDocument ⟨.ofNat 7⟩ {}⟩]
    let first : Asked := ⟨Unit, .ofNumbers (-1) 3, .updateDocument ⟨.ofNat 1⟩ (.named "x")⟩
    let second : Asked := ⟨Unit, .ofNumbers 2000 4, .updateDocument ⟨.ofNat 2⟩ (.named "x")⟩
    Apart store.contents first second ∧ (Store.ask store second).1 = .ok () ∧
      (Store.ask (Store.ask store first).2 second).1 =
        .error (.repository "update document" .poisoned) := by
  intro store first second
  refine ⟨⟨⟨rfl, rfl⟩, ?_, nofun, nofun⟩, by decide +kernel, by decide +kernel⟩
  rintro id ⟨⟩
  decide

end DocAccess
