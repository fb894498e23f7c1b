import DocAccess.Proofs.Deletion
import DocAccess.Proofs.Ownership

/-!
# What a document says

A document is the fold of its updates: the event that has made it gives it its time, and each of
its fields is what has been written there last. What has not been written in the document has
not changed it.
-/

set_option autoImplicit false

namespace DocAccess

variable {α : Type}

/-! ## What an event writes -/

namespace Action

/-- The fields that an operation has written in a document. -/
def written? (id : DocumentId) : Operation α → Outcome α → Option DocumentFields
  | .createDocument _ fields, .ok made => if made = id then some fields else none
  | .updateDocument other fields, .ok _ =>
      if other = id && !fields.isEmpty then some fields else none
  | _, _ => none

/-- Whether an operation is to change a document that is there. -/
def rewrites (id : DocumentId) : Operation α → Bool
  | .updateDocument other fields => other = id && !fields.isEmpty
  | .deleteDocument other => other = id
  | _ => false

end Action

/-- The fields that an event has written in a document, and when. -/
def Event.written? (id : DocumentId) (event : Event) : Option (DocumentFields × Timestamp) :=
  event.moment.clock.now?.bind fun now =>
    (event.operation.written? id event.outcome).map fun fields => (fields, now)

theorem Action.written?_error (id : DocumentId) (operation : Operation α) (failure : StoreError) :
    operation.written? id (.error failure) = none := by
  cases operation <;> rfl

private theorem Action.written?_of_reads {id : DocumentId} {operation : Operation α} {value : α}
    (reads : operation.isWrite = false) : operation.written? id (.ok value) = none := by
  cases operation with
  | createDocument creator fields => cases reads
  | updateDocument other fields =>
      have empty : fields.isEmpty = true := by simpa [isWrite] using reads
      simp [written?, empty]
  | _ => rfl

theorem Event.written?_eq_none {id : DocumentId} {event : Event}
    (unwritten : event.operation.written? id event.outcome = none) : event.written? id = none := by
  rw [written?, unwritten]
  cases event.moment.clock.now? <;> rfl

/-- A document with what has been written in it, if something has. -/
def Document.written (document : Document) : Option (DocumentFields × Timestamp) → Document
  | some (fields, now) => { document.withFields fields with lastModifiedAt := now }
  | none => document

/-- What a document tells after some writings, the first of which has made it. -/
structure Document.Tells (document : Document) (writings : List (DocumentFields × Timestamp)) :
    Prop where
  name : document.name = (writings.filterMap fun writing => writing.1.name).getLast?
  description :
    document.description = (writings.filterMap fun writing => writing.1.description).getLast?
  modified : writings.getLast?.map Prod.snd = some document.lastModifiedAt

private theorem getLast?_filterMap_concat {β γ : Type} (field : β → Option γ) (earlier : List β)
    (last : β) :
    ((earlier ++ [last]).filterMap field).getLast? =
      (field last).or (earlier.filterMap field).getLast? := by
  rw [List.filterMap_append, List.getLast?_append]
  cases sets : field last with
  | none => rw [List.filterMap_cons_none sets]; rfl
  | some value => rw [List.filterMap_cons_some sets]; rfl

namespace Document

variable {document : Document} {writings : List (DocumentFields × Timestamp)}

@[simp]
theorem id_written (document : Document) (writing : Option (DocumentFields × Timestamp)) :
    (document.written writing).id = document.id := by
  cases writing <;> rfl

@[simp]
theorem createdAt_written (document : Document) (writing : Option (DocumentFields × Timestamp)) :
    (document.written writing).createdAt = document.createdAt := by
  cases writing <;> rfl

private theorem tells_ofFields (id : DocumentId) (fields : DocumentFields) (now : Timestamp) :
    (Document.ofFields id fields now).Tells [(fields, now)] := by
  obtain ⟨name, description⟩ := fields
  constructor
  · cases name <;> rfl
  · cases description <;> rfl
  · rfl

private theorem Tells.written (tells : document.Tells writings)
    (writing : Option (DocumentFields × Timestamp)) :
    (document.written writing).Tells (writings ++ writing.toList) := by
  cases writing with
  | none => simpa [Document.written] using tells
  | some writing =>
      obtain ⟨fields, now⟩ := writing
      constructor
      · rw [Option.toList_some, getLast?_filterMap_concat, ← tells.name]
        rfl
      · rw [Option.toList_some, getLast?_filterMap_concat, ← tells.description]
        rfl
      · rw [Option.toList_some, List.getLast?_concat]
        rfl

end Document

/-! ## Changes -/

namespace MemoryStore.Change

variable {maps after : MemoryStore} {moment : Moment} {operation : Operation α}
  {outcome : Outcome α} {id : DocumentId} {document : Document}

private theorem document_made (changes : maps.Change moment operation outcome after)
    {creator : UserId} (made : operation.made? outcome = some (creator, id)) :
    ∃ fields now, moment.clock.now? = some now ∧ operation.written? id outcome = some fields ∧
      after.documents[id]? = some (.ofFields id fields now) := by
  obtain ⟨⟨value, done⟩, writes⟩ := Action.isWrite_of_made? made
  cases changes with
  | @documentMade creator fields now read fresh =>
      cases made
      exact ⟨fields, now, read, if_pos rfl, Std.ExtTreeMap.getElem?_insert_self⟩
  | refused => cases done
  | answered reads =>
      rw [reads] at writes
      cases writes
  | brokenOff unread => cases done
  | _ => cases made

theorem document_kept (before : Contents) (changes : maps.Change moment operation outcome after)
    (ends : outcome ≠ .aborted) (found : maps.documents[id]? = some document)
    (kept : operation.deleted? outcome ≠ some id) : after.documents[id]? =
      some (document.written ((Event.mk α before moment operation outcome).written? id)) := by
  have unwritten (none : operation.written? id outcome = none)
      (same : after.documents[id]? = some document) : after.documents[id]? =
        some (document.written ((Event.mk α before moment operation outcome).written? id)) := by
    rw [Event.written?_eq_none none]
    exact same
  cases changes with
  | refused => exact unwritten (Action.written?_error id operation _) found
  | answered reads => exact unwritten (Action.written?_of_reads reads) found
  | documentMade read fresh =>
      have apart : (⟨moment.drawn⟩ : DocumentId) ≠ id := by
        rintro rfl
        rw [fresh] at found
        cases found
      exact unwritten (if_neg apart) ((Map.getElem?_insert_of_ne apart.symm).trans found)
  | @documentChanged other fields held now read sets looked =>
      by_cases same : other = id
      · subst same
        rw [looked] at found
        cases found
        have writes : (Event.mk Unit before moment (.updateDocument other fields) (.ok ())).written?
            other = some (fields, now) := by
          simp [Event.written?, Action.written?, read, sets]
        rw [Std.ExtTreeMap.getElem?_insert_self, writes]
        rfl
      · refine unwritten (if_neg ?_) ((Map.getElem?_insert_of_ne (Ne.symm same)).trans found)
        simp [same]
  | @documentDeleted other deleted looked =>
      have apart : id ≠ other := fun same => kept (same ▸ rfl)
      exact unwritten rfl (Map.getElem?_erase_eq_some.2 ⟨apart, found⟩)
  | brokenOff unread => exact absurd rfl ends
  | documentHalfChanged unread looked => exact absurd rfl ends
  | guestHalfChanged unread looked held => exact absurd rfl ends
  | _ => exact unwritten rfl found

private theorem document_before (changes : maps.Change moment operation outcome after)
    (found : after.documents[id]? = some document) :
    (∃ creator, operation.made? outcome = some (creator, id)) ∨
      (∃ old, maps.documents[id]? = some old) ∧ operation.deleted? outcome ≠ some id := by
  by_cases made : ∃ creator, operation.made? outcome = some (creator, id)
  · exact .inl made
  · refine .inr ⟨Option.ne_none_iff_exists'.1 fun absent => ?_, fun deletes => ?_⟩
    · rw [changes.stays_absent absent (not_exists.1 made)] at found
      cases found
    · rw [changes.absent_of_deleted deletes] at found
      cases found

private theorem leaves_alone (changes : maps.Change moment operation outcome after)
    (ends : outcome ≠ .aborted) (found : maps.documents[id]? = some document)
    (leaves : operation.rewrites id = false ∨ ∃ failure, outcome = .error failure) :
    operation.deleted? outcome ≠ some id ∧ operation.written? id outcome = none := by
  cases outcome with
  | aborted => exact absurd rfl ends
  | error failure =>
      refine ⟨fun deletes => ?_, Action.written?_error id operation failure⟩
      obtain ⟨⟨value, done⟩, -⟩ := Action.isWrite_of_deleted? deletes
      cases done
  | ok value =>
      have leaves := leaves.resolve_right fun ⟨_, fails⟩ => nomatch fails
      cases operation with
      | createDocument creator fields =>
          -- A document that is there is not made again.
          have apart : value ≠ id := by
            rintro rfl
            rw [changes.fresh_of_made rfl] at found
            cases found
          exact ⟨nofun, if_neg apart⟩
      | updateDocument other fields => exact ⟨nofun, if_neg (Bool.eq_false_iff.1 leaves)⟩
      | deleteDocument other =>
          refine ⟨fun deletes => ?_, rfl⟩
          cases deletes
          exact of_decide_eq_false leaves rfl
      | _ => exact ⟨nofun, rfl⟩

end MemoryStore.Change

/-! ## Runs -/

/-- The event that has made a document which has not been deleted since, and the events since. -/
structure LastMade (id : DocumentId) (events : List Event) (creation : Event)
    (since : List Event) : Prop where
  split : ∃ earlier, events = earlier ++ creation :: since
  made : ∃ creator, creation.made? = some (creator, id)
  kept : ∀ event ∈ since, event.deleted? ≠ some id

/-- What a document has from the event that made it, and from what has been written since. -/
structure Document.ComesFrom (document : Document) (id : DocumentId) (creation : Event)
    (since : List Event) : Prop where
  named : document.id = id
  created : creation.moment.clock.now? = some document.createdAt
  tells : document.Tells ((creation :: since).filterMap (Event.written? id))

namespace Event.Leads

variable {event : Event} {maps after : MemoryStore} {id : DocumentId} {document : Document}

private theorem document_made (leads : event.Leads maps after) {creator : UserId}
    (made : event.made? = some (creator, id)) :
    ∃ document, after.documents[id]? = some document ∧ document.ComesFrom id event [] := by
  obtain ⟨fields, now, read, writes, found⟩ := leads.changes.document_made made
  refine ⟨_, found, rfl, read, ?_⟩
  have written : event.written? id = some (fields, now) := by
    rw [Event.written?, read, writes]
    rfl
  rw [List.filterMap_cons_some written]
  exact Document.tells_ofFields id fields now

private theorem document_kept (leads : event.Leads maps after) (ends : event.outcome ≠ .aborted)
    (found : maps.documents[id]? = some document) (kept : event.deleted? ≠ some id) :
    after.documents[id]? = some (document.written (event.written? id)) :=
  leads.changes.document_kept event.before ends found kept

end Event.Leads

namespace MemoryStore.Course

variable {maps after : MemoryStore} {events since : List Event} {creation : Event}
  {id : DocumentId} {document : Document}

private theorem document_since (course : maps.Course events after)
    (ends : ∀ event ∈ events, event.outcome ≠ .aborted)
    (kept : ∀ event ∈ events, event.deleted? ≠ some id)
    (found : maps.documents[id]? = some document) (comes : document.ComesFrom id creation since) :
    ∃ changed, after.documents[id]? = some changed ∧
      changed.ComesFrom id creation (since ++ events) := by
  induction course generalizing document since with
  | done => exact ⟨document, found, by rwa [List.append_nil]⟩
  | @next event events maps middle after leads rest ih =>
      obtain ⟨first, others⟩ := List.forall_mem_cons.1 kept
      obtain ⟨ended, ends⟩ := List.forall_mem_cons.1 ends
      have found' := leads.document_kept ended found first
      have comes' : (document.written (event.written? id)).ComesFrom id creation
          (since ++ [event]) := by
        refine ⟨?_, ?_, ?_⟩
        · rw [Document.id_written, comes.named]
        · rw [Document.createdAt_written, comes.created]
        · have tells := comes.tells.written (event.written? id)
          rw [← List.cons_append, List.filterMap_append]
          exact tells
      have changed := ih ends others found' comes'
      rwa [List.append_assoc, List.singleton_append] at changed

private theorem document_of_lastMade (course : maps.Course events after)
    (ends : ∀ event ∈ events, event.outcome ≠ .aborted)
    (last : LastMade id events creation since) :
    ∃ document, after.documents[id]? = some document ∧ document.ComesFrom id creation since := by
  obtain ⟨⟨earlier, rfl⟩, ⟨creator, made⟩, kept⟩ := last
  obtain ⟨middle, -, later⟩ := course.split
  cases later with
  | next leads rest =>
      obtain ⟨document, found, comes⟩ := leads.document_made made
      have endsSince (event : Event) (member : event ∈ since) : event.outcome ≠ .aborted :=
        ends event (List.mem_append_right earlier (List.mem_cons_of_mem creation member))
      exact rest.document_since endsSince kept found comes

private theorem exists_lastMade (course : maps.Course events after)
    (found : after.documents[id]? = some document) :
    (∃ creation since, LastMade id events creation since) ∨
      (∃ old, maps.documents[id]? = some old) ∧ ∀ event ∈ events, event.deleted? ≠ some id := by
  induction course with
  | done => exact .inr ⟨⟨document, found⟩, fun event member => absurd member List.not_mem_nil⟩
  | @next event events maps middle after leads rest ih =>
      rcases ih found with ⟨creation, since, ⟨earlier, rfl⟩, made, kept⟩ | ⟨⟨old, held⟩, kept⟩
      · exact .inl ⟨creation, since, ⟨event :: earlier, rfl⟩, made, kept⟩
      · rcases leads.changes.document_before held with made | ⟨stood, stays⟩
        · exact .inl ⟨event, events, ⟨[], rfl⟩, made, kept⟩
        · exact .inr ⟨stood, List.forall_mem_cons.2 ⟨stays, kept⟩⟩

end MemoryStore.Course

/-! ## Documents of a store -/

namespace StoreKind.Models

variable {kind : StoreKind} {store : kind.State} {maps : MemoryStore}

private theorem getDocument (models : kind.Models store maps) (live : maps.poisoned = false)
    (moment : Moment) (id : DocumentId) :
    (MemoryStore.found (.documentNotFound id) maps.documents[id]?).Agrees
      (Store.step store moment (.getDocument id)).1 := by
  refine models.agrees_found ?_ rfl rfl rfl
  simp [MemoryStore.step, MemoryStore.locked, live, MemoryStore.answer]

theorem getDocument_eq_ok_iff (models : kind.Models store maps) (live : maps.poisoned = false)
    {moment : Moment} {id : DocumentId} {document : Document} :
    (Store.step store moment (.getDocument id)).1 = .ok document ↔
      maps.documents[id]? = some document :=
  (models.getDocument live moment id).eq_ok_iff

private theorem getDocument_step (models : kind.Models store maps) (live : maps.poisoned = false)
    {moment : Moment} {operation : Operation α} {id : DocumentId} {document : Document}
    (ends : (Store.step store moment operation).1 ≠ .aborted)
    (leaves : operation.rewrites id = false ∨
      ∃ failure, (Store.step store moment operation).1 = .error failure)
    {earlier later : Moment}
    (stood : (Store.step store earlier (.getDocument id)).1 = .ok document) :
    (Store.step (Store.step store moment operation).2 later (.getDocument id)).1 =
      .ok document := by
  obtain ⟨after, changes, models'⟩ := models.step moment operation
  have found := (models.getDocument_eq_ok_iff live).1 stood
  have live' := (changes.poisoned ends).trans live
  apply (models'.getDocument_eq_ok_iff live').2
  obtain ⟨kept, unwritten⟩ := changes.leaves_alone ends found leaves
  rw [changes.document_kept maps.contents ends found kept,
    Event.written?_eq_none unwritten]
  rfl

end StoreKind.Models

/-- A document is there if and only if the last event that has made it has not been followed by
its deletion. It has its time from that event. Its name and its description are, each by itself,
what has been given for it last, then or by an update since; without any it has none. The time of
its last change is that of the last update that has given something, or of its making. An
operation that fails, that gives nothing or that is about something else changes nothing of it. If
the lock has been poisoned, as it is not while the clock can be read, looking for a document says
so. -/
theorem document_is_its_history {kind : StoreKind} {store : kind.State}
    (new : InspectedStore.isNew store) (history : List Asked) :
    let after := Store.after store history
    ((∀ asked ∈ history, asked.moment.isReadable = true) → ¬ kind.Broken after) ∧
      (kind.Broken after → ∀ (id : DocumentId) (moment : Moment),
        (Store.step after moment (.getDocument id)).1 =
          .error (.repository "get document" .poisoned)) ∧
      (∃ events, Store.events store history = .ok events ∧
        ∀ (id : DocumentId) (moment : Moment),
          let answer := (Store.step after moment (.getDocument id)).1
          (¬ kind.Broken after →
              ((∃ document, answer = .ok document) ↔
                ∃ creation since, LastMade id events creation since)) ∧
            ∀ document creation since, answer = .ok document →
              LastMade id events creation since → document.ComesFrom id creation since) ∧
      ∀ (asked : Asked) (id : DocumentId) (document : Document) (moment later : Moment),
        (Store.step after moment (.getDocument id)).1 = .ok document →
        (Store.step after asked.moment asked.operation).1 ≠ .aborted →
        (asked.operation.rewrites id = false ∨
          ∃ failure, (Store.step after asked.moment asked.operation).1 = .error failure) →
        (Store.step (Store.step after asked.moment asked.operation).2 later
          (.getDocument id)).1 = .ok document := by
  intro after
  obtain ⟨events, maps, recorded, course, models⟩ := (StoreKind.models_new new).course history
  -- What is answered is answered by a store that works.
  have live {id : DocumentId} {moment : Moment} {document : Document}
      (answered : (Store.step after moment (.getDocument id)).1 = .ok document) :
      maps.poisoned = false :=
    models.works_iff.1 fun broken => broken.ne_ok rfl moment document answered
  refine ⟨StoreKind.works_of_readable new, ?_, ⟨events, recorded, fun id moment => ⟨?_, ?_⟩⟩, ?_⟩
  · intro broken id moment
    exact congrArg Prod.fst (broken.refused rfl moment)
  · intro works
    have live := models.works_iff.1 works
    simp only [after, models.getDocument_eq_ok_iff live]
    constructor
    · intro given
      obtain ⟨document, found⟩ := given
      -- No document is there from the start.
      rcases course.exists_lastMade found with made | ⟨⟨old, held⟩, -⟩
      · exact made
      · cases held
    · intro given
      obtain ⟨creation, since, last⟩ := given
      obtain ⟨document, found, -⟩ := course.document_of_lastMade (course.ends_of_live live).2 last
      exact ⟨document, found⟩
  · intro document creation since answered last
    have live := live answered
    have found := (models.getDocument_eq_ok_iff live).1 answered
    obtain ⟨same, found', comes⟩ := course.document_of_lastMade (course.ends_of_live live).2 last
    rw [found] at found'
    cases found'
    exact comes
  · intro asked id document moment later stood ends leaves
    exact models.getDocument_step (live stood) ends leaves stood

/-- A document gets a description, loses its name to an empty one and is then updated with
nothing and shared: it keeps the description and the time of its last update. -/
theorem document_of_two_updates :
    let history : List Asked := [
      ⟨DocumentId, .ofNumbers 1 1, .createDocument ⟨.ofNat 7⟩ (.named "draft")⟩,
      ⟨Unit, .ofNumbers 2 2, .updateDocument ⟨.ofNat 1⟩ { description := some "first" }⟩,
      ⟨Unit, .ofNumbers 3 3, .updateDocument ⟨.ofNat 1⟩ (.named "")⟩,
      ⟨Unit, .ofNumbers 4 4, .updateDocument ⟨.ofNat 1⟩ {}⟩]
    let sharing : Asked := ⟨Unit, .ofNumbers 5 5, .upsertUser ⟨.ofNat 8⟩ ⟨.ofNat 1⟩ .editor⟩
    let document : Document := ⟨⟨.ofNat 1⟩, some "", some "first",
      ⟨1, 0, by decide, by decide⟩, ⟨3, 0, by decide, by decide⟩⟩
    (∃ events creation since, Store.events MemoryStore.empty history = .ok events ∧
      LastMade ⟨.ofNat 1⟩ events creation since ∧
        document.ComesFrom ⟨.ofNat 1⟩ creation since) ∧
      ((((Store.after MemoryStore.empty history).step sharing.moment sharing.operation).2).step
        (.ofNumbers 6 6) (.getDocument ⟨.ofNat 1⟩)).1 = .ok document := by
  intro history sharing document
  have answered : ((Store.after MemoryStore.empty history).step (.ofNumbers 6 6)
      (.getDocument ⟨.ofNat 1⟩)).1 = .ok document := by decide +kernel
  obtain ⟨works, -, ⟨events, recorded, answers⟩, unchanged⟩ :=
    @document_is_its_history .memory MemoryStore.empty rfl history
  obtain ⟨found, comesFrom⟩ := answers ⟨.ofNat 1⟩ (.ofNumbers 6 6)
  obtain ⟨creation, since, last⟩ := (found (works (by decide))).1 ⟨document, answered⟩
  refine ⟨⟨events, creation, since, recorded, last,
    comesFrom document creation since answered last⟩, ?_⟩
  exact unchanged sharing ⟨.ofNat 1⟩ document (.ofNumbers 6 6) (.ofNumbers 6 6) answered
    (by decide +kernel) (.inl rfl)

/-- The clock is never negative, but its last reading lies past the calendar. The document is
not told then, though it has not been deleted. -/
theorem document_not_told_past_calendar :
    let history : List Asked := [
      ⟨DocumentId, .ofNumbers 8210266876799999999 1, .createDocument ⟨.ofNat 7⟩ (.named "draft")⟩,
      ⟨Unit, .ofNumbers 8210266876800000000 2, .updateDocument ⟨.ofNat 1⟩ (.named "final")⟩]
    (∀ asked ∈ history, 0 ≤ asked.moment.clock.micros) ∧
      ∃ events creation since, Store.events MemoryStore.empty history = .ok events ∧
        LastMade ⟨.ofNat 1⟩ events creation since ∧
        ((Store.after MemoryStore.empty history).step (.ofNumbers 8210266876800000001 3)
          (.getDocument ⟨.ofNat 1⟩)).1 = .error (.repository "get document" .poisoned) := by
  intro history
  refine ⟨by decide, ?_⟩
  obtain ⟨events, -, recorded, -⟩ :=
    (@StoreKind.models_new .memory MemoryStore.empty rfl).course history
  have shows : (Store.events MemoryStore.empty history).toOption.map (List.map fun event =>
      (event.made?, event.deleted?)) =
        some [(some (⟨.ofNat 7⟩, ⟨.ofNat 1⟩), none), (none, none)] := by
    decide +kernel
  have read : Store.events MemoryStore.empty history = .ok events := recorded
  rw [read] at shows
  obtain ⟨creation, rest, rfl, makes, shows⟩ := List.map_eq_cons_iff.1 (Option.some.inj shows)
  obtain ⟨breaking, rest, rfl, breaks, shows⟩ := List.map_eq_cons_iff.1 shows
  obtain rfl := List.map_eq_nil_iff.1 shows
  refine ⟨_, creation, [breaking], recorded,
    ⟨⟨[], rfl⟩, ⟨_, (Prod.mk.inj makes).1⟩, ?_⟩, by decide +kernel⟩
  intro event member deletes
  rw [List.mem_singleton.1 member, (Prod.mk.inj breaks).2] at deletes
  cases deletes

end DocAccess
