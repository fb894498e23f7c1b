import DocAccess.Proofs.Listing.Order
import DocAccess.Proofs.Stepping
import Mathlib.Data.List.Induction

/-!
# Times of rows

No code checks the times of the rows against one another. That they agree follows from where
the operations read the clock and which columns they write: a row is made with one reading in
both its columns, and later readings only reach the column of its last change.
-/

set_option autoImplicit false

namespace DocAccess

open Std (ExtTreeMap LawfulEqOrd TransOrd)

/-- What tells a row from all other rows of a store. -/
inductive RowName where
  | document (id : DocumentId)
  | permission (key : PermissionKey)
  | guest (id : GuestId)
  deriving DecidableEq

/-- A row as its name, the document that it is about and its times. -/
structure Dated where
  name : RowName
  document : DocumentId
  created : Timestamp
  modified : Timestamp
  deriving DecidableEq

def Dated.time (row : Dated) : SortField → Timestamp
  | .createdAt => row.created
  | .lastModifiedAt => row.modified

def Document.dated (document : Document) : Dated :=
  ⟨.document document.id, document.id, document.createdAt, document.lastModifiedAt⟩

def Permission.dated (permission : Permission) : Dated :=
  ⟨.permission permission.key, permission.documentId, permission.createdAt,
    permission.lastModifiedAt⟩

/-- The record of a guest is not changed after it has been made. -/
def Guest.dated (guest : Guest) : Dated :=
  ⟨.guest guest.id, guest.documentId, guest.createdAt, guest.createdAt⟩

def Contents.dated (rows : Contents) : List Dated :=
  rows.documents.map Document.dated ++ rows.permissions.map Permission.dated ++
    rows.guests.map Guest.dated

/-! ## Readings -/

theorem Clock.micros_of_now? {clock : Clock} {now : Timestamp} (read : clock.now? = some now) :
    now.micros = clock.micros := by
  unfold now? at read
  split at read
  · exact (Timestamp.micros_of_atMicros? read).1
  · cases read

theorem Steady.before {earlier later : List Asked}
    (steady : Steady ((earlier ++ later).map Asked.moment)) :
    Steady (earlier.map Asked.moment) := by
  rw [List.map_append] at steady
  exact (List.pairwise_append.1 steady).1

theorem Steady.reached {history : List Asked} {asked shown : Asked}
    (steady : Steady ((history ++ [asked]).map Asked.moment))
    (member : shown ∈ history ++ [asked]) :
    asked.moment.clock.isReached shown.moment.clock := by
  rcases List.mem_append.1 member with before | same
  · rw [List.map_append] at steady
    exact (List.pairwise_append.1 steady).2.2 _ (List.mem_map_of_mem before) _ List.mem_cons_self
  · obtain rfl := List.mem_singleton.1 same
    exact .inr ⟨rfl, Nat.le_refl _⟩

/-- A time that the clock has shown at one of some moments. -/
def Timestamp.IsReading (history : List Asked) (time : Timestamp) : Prop :=
  ∃ asked ∈ history, asked.moment.clock.now? = some time

namespace Timestamp.IsReading

variable {history : List Asked} {asked : Asked} {time now : Timestamp}

theorem append (reading : time.IsReading history) (later : List Asked) :
    time.IsReading (history ++ later) := by
  obtain ⟨shown, member, read⟩ := reading
  exact ⟨shown, List.mem_append_left _ member, read⟩

private theorem last (read : asked.moment.clock.now? = some now) :
    now.IsReading (history ++ [asked]) :=
  ⟨asked, List.mem_append_right _ List.mem_cons_self, read⟩

private theorem le_last (reading : time.IsReading (history ++ [asked]))
    (steady : Steady ((history ++ [asked]).map Asked.moment)) :
    time.micros ≤ asked.moment.clock.micros := by
  obtain ⟨shown, member, read⟩ := reading
  rw [Clock.micros_of_now? read]
  rcases steady.reached member with less | ⟨equal, -⟩
  · exact Int.le_of_lt less
  · exact Int.le_of_eq equal

theorem le_now (reading : time.IsReading (history ++ [asked]))
    (steady : Steady ((history ++ [asked]).map Asked.moment))
    (read : asked.moment.clock.now? = some now) : time.nanos ≤ now.nanos := by
  obtain ⟨shown, member, shows⟩ := reading
  exact (steady.reached member).now?_le shows read

end Timestamp.IsReading

/-! ## One operation -/

/-- What becomes of a row at a reading of the clock. -/
inductive Dated.Ages (clock : Clock) : Option Dated → Option Dated → Prop where
  | gone {before : Option Dated} : Ages clock before none
  | kept {row : Dated} : Ages clock (some row) (some row)
  | changed {row : Dated} {now : Timestamp} (read : clock.now? = some now) :
      Ages clock (some row) (some { row with modified := now })
  | born {row : Dated} (created : clock.now? = some row.created)
      (modified : clock.now? = some row.modified) : Ages clock none (some row)

namespace Dated.Ages

variable {clock : Clock} {κ β : Type} [Ord κ] [TransOrd κ] {map after : ExtTreeMap κ β}
  {dated : β → Dated} {key other : κ} {value : β}

theorem refl (row : Option Dated) : Ages clock row row := by
  cases row with
  | none => exact .gone
  | some row => exact .kept

private theorem of_subset (kept : ∀ value, after[key]? = some value → map[key]? = some value) :
    Ages clock (map[key]?.map dated) (after[key]?.map dated) := by
  cases found : after[key]? with
  | none => exact .gone
  | some value =>
      rw [kept value found]
      exact .kept

theorem insert [LawfulEqOrd κ] [DecidableEq κ]
    (written : Ages clock (map[key]?.map dated) (some (dated value))) :
    Ages clock (map[other]?.map dated) ((map.insert key value)[other]?.map dated) := by
  by_cases same : other = key
  · subst same
    rw [ExtTreeMap.getElem?_insert_self]
    exact written
  · rw [Map.getElem?_insert_of_ne same]
    exact .refl _

/-- A row has been there, made when it was, or it is made now. -/
theorem inv {before : Option Dated} {row : Dated} (ages : Ages clock before (some row)) :
    (∃ old, before = some old ∧ row.document = old.document ∧ row.created = old.created ∧
        (row.modified = old.modified ∨ clock.now? = some row.modified)) ∨
      before = none ∧ clock.now? = some row.created ∧ clock.now? = some row.modified := by
  cases ages with
  | kept => exact .inl ⟨row, rfl, rfl, rfl, .inl rfl⟩
  | @changed old now read => exact .inl ⟨old, rfl, rfl, rfl, .inr read⟩
  | born created modified => exact .inr ⟨rfl, created, modified⟩

end Dated.Ages

namespace MemoryStore

def dated? (maps : MemoryStore) : RowName → Option Dated
  | .document id => maps.documents[id]?.map Document.dated
  | .permission key => maps.permissions[key]?.map Permission.dated
  | .guest id => maps.guests[id]?.map Guest.dated

theorem Integrity.mem_dated_iff {maps : MemoryStore} (intact : maps.Integrity) {row : Dated} :
    row ∈ maps.contents.dated ↔ maps.dated? row.name = some row := by
  simp only [Contents.dated, List.mem_append, List.mem_map]
  constructor
  · rintro ((⟨document, member, rfl⟩ | ⟨permission, member, rfl⟩) | ⟨guest, member, rfl⟩)
    · obtain ⟨id, found⟩ := Map.mem_values.1 member
      rw [← intact.document_id id document found] at found
      exact congrArg (Option.map Document.dated) found
    · obtain ⟨key, held⟩ := Map.mem_values.1 member
      rw [← intact.permission_key key permission held] at held
      exact congrArg (Option.map Permission.dated) held
    · obtain ⟨id, known⟩ := Map.mem_values.1 member
      rw [← intact.guest_id id guest known] at known
      exact congrArg (Option.map Guest.dated) known
  · intro given
    obtain ⟨name, document, created, modified⟩ := row
    cases name with
    | document id =>
        obtain ⟨document, found, same⟩ := Option.map_eq_some_iff.1 given
        exact .inl (.inl ⟨document, Map.mem_values.2 ⟨id, found⟩, same⟩)
    | permission key =>
        obtain ⟨permission, held, same⟩ := Option.map_eq_some_iff.1 given
        exact .inl (.inr ⟨permission, Map.mem_values.2 ⟨key, held⟩, same⟩)
    | guest id =>
        obtain ⟨guest, known, same⟩ := Option.map_eq_some_iff.1 given
        exact .inr ⟨guest, Map.mem_values.2 ⟨id, known⟩, same⟩

/-- The document that a row is about is there. -/
private theorem Integrity.exists_root {maps : MemoryStore} (intact : maps.Integrity)
    {name : RowName} {row : Dated} (found : maps.dated? name = some row) :
    ∃ root, maps.dated? (.document row.document) = some root := by
  have root {id : DocumentId} (present : ∃ document, maps.documents[id]? = some document) :
      ∃ root, maps.dated? (.document id) = some root := by
    obtain ⟨document, found⟩ := present
    exact ⟨document.dated, congrArg (Option.map Document.dated) found⟩
  cases name with
  | document id =>
      obtain ⟨document, looked, rfl⟩ := Option.map_eq_some_iff.1 found
      rw [← intact.document_id id document looked] at looked
      exact root ⟨document, looked⟩
  | permission key =>
      obtain ⟨permission, held, rfl⟩ := Option.map_eq_some_iff.1 found
      rw [← intact.permission_key key permission held] at held
      exact root (intact.permission_document permission.key permission held)
  | guest id =>
      obtain ⟨guest, known, rfl⟩ := Option.map_eq_some_iff.1 found
      exact root (intact.guest_document id guest known)

variable {α : Type} {store after : MemoryStore} {moment : Moment} {operation : Operation α}
  {outcome : Outcome α}

private theorem ages_insertDocument {clock : Clock} {id : DocumentId} {document : Document}
    (written : Dated.Ages clock (store.documents[id]?.map Document.dated) (some document.dated))
    (name : RowName) :
    Dated.Ages clock (store.dated? name)
      (dated? { store with documents := store.documents.insert id document } name) := by
  cases name with
  | document other => exact .insert written
  | permission key => exact .refl _
  | guest guest => exact .refl _

private theorem ages_insertPermission {clock : Clock} {key : PermissionKey}
    {permission : Permission}
    (written : Dated.Ages clock (store.permissions[key]?.map Permission.dated)
      (some permission.dated)) (name : RowName) :
    Dated.Ages clock (store.dated? name)
      (dated? { store with permissions := store.permissions.insert key permission } name) := by
  cases name with
  | document id => exact .refl _
  | permission other => exact .insert written
  | guest guest => exact .refl _

private theorem Change.ages (intact : store.Integrity)
    (changes : Change store moment operation outcome after) (name : RowName) :
    Dated.Ages moment.clock (store.dated? name) (after.dated? name) := by
  cases changes with
  | refused => exact .refl _
  | answered => exact .refl _
  | @documentMade creator fields now read fresh =>
      have unheld : store.permissions.contains
          (⟨.ofUser creator, ⟨moment.drawn⟩⟩ : PermissionKey) = false :=
        intact.unheld (Map.contains_eq_false_iff.2 fresh)
      cases name with
      | document id =>
          apply Dated.Ages.insert
          rw [fresh]
          exact .born read read
      | permission key =>
          apply Dated.Ages.insert
          rw [Map.contains_eq_false_iff.1 unheld]
          exact .born read read
      | guest guest => exact .refl _
  | documentChanged read sets found =>
      apply ages_insertDocument
      rw [found]
      exact .changed read
  | documentDeleted found =>
      cases name with
      | document id => exact .of_subset fun _ kept => (Map.getElem?_erase_eq_some.1 kept).2
      | permission key => exact .of_subset fun _ kept => (Map.getElem?_filter_eq_some.1 kept).1
      | guest guest => exact .of_subset fun _ kept => (Map.getElem?_filter_eq_some.1 kept).1
  | userAdded read found fresh =>
      apply ages_insertPermission
      rw [fresh]
      exact .born read read
  | userChanged read found held byUser =>
      apply ages_insertPermission
      rw [held]
      exact .changed read
  | guestChanged read found held byGuest =>
      apply ages_insertPermission
      rw [held]
      exact .changed read
  | permissionDeleted held =>
      cases name with
      | document id => exact .refl _
      | permission key => exact .of_subset fun _ kept => (Map.getElem?_erase_eq_some.1 kept).2
      | guest guest => exact .refl _
  | guestMade read found fresh unheld =>
      cases name with
      | document id => exact .refl _
      | permission key =>
          apply Dated.Ages.insert
          rw [unheld]
          exact .born read read
      | guest guest =>
          apply Dated.Ages.insert
          rw [fresh]
          exact .born read read
  | brokenOff => exact .refl _
  -- What is half changed keeps its times.
  | documentHalfChanged unread found =>
      apply ages_insertDocument
      rw [found]
      exact .kept
  | guestHalfChanged unread found held =>
      apply ages_insertPermission
      rw [held]
      exact .kept

/-! ## Runs -/

/-- What holds of the times of rows that some operations have led to. -/
structure Coherent (maps : MemoryStore) (history : List Asked) : Prop where
  read (name : RowName) (row : Dated) : maps.dated? name = some row →
    row.created.IsReading history ∧ row.modified.IsReading history
  ordered (name : RowName) (row : Dated) : maps.dated? name = some row →
    row.created.nanos ≤ row.modified.nanos
  rooted (name : RowName) (row root : Dated) : maps.dated? name = some row →
    maps.dated? (.document row.document) = some root → root.created.nanos ≤ row.created.nanos

theorem coherent_empty : empty.Coherent [] := by
  have absent {name : RowName} {row : Dated} (found : empty.dated? name = some row) : False := by
    cases name <;> simp [dated?, empty] at found
  refine ⟨?_, ?_, ?_⟩
  · intro name row found
    exact (absent found).elim
  · intro name row found
    exact (absent found).elim
  · intro name row root found rooted
    exact (absent found).elim

theorem Coherent.step {maps after : MemoryStore} {history : List Asked} {asked : Asked}
    (coherent : maps.Coherent history) (intact : maps.Integrity)
    (steady : Steady ((history ++ [asked]).map Asked.moment))
    (ages : ∀ name, Dated.Ages asked.moment.clock (maps.dated? name) (after.dated? name)) :
    after.Coherent (history ++ [asked]) := by
  have becomes (name : RowName) (row : Dated) (found : after.dated? name = some row) :
      Dated.Ages asked.moment.clock (maps.dated? name) (some row) := found ▸ ages name
  have reads (name : RowName) (row : Dated) (found : after.dated? name = some row) :
      row.created.IsReading (history ++ [asked]) ∧ row.modified.IsReading (history ++ [asked]) := by
    rcases (becomes name row found).inv with ⟨old, was, -, created, modified⟩ |
      ⟨-, created, modified⟩
    · obtain ⟨made, changed⟩ := coherent.read name old was
      refine ⟨created ▸ made.append _, ?_⟩
      rcases modified with same | read
      · exact same ▸ changed.append _
      · exact .last read
    · exact ⟨.last created, .last modified⟩
  refine ⟨reads, ?_, ?_⟩
  · intro name row found
    obtain ⟨made, -⟩ := reads name row found
    rcases (becomes name row found).inv with ⟨old, was, -, created, same | read⟩ | ⟨-, -, modified⟩
    · rw [created, same]
      exact coherent.ordered name old was
    · exact made.le_now steady read
    · exact made.le_now steady modified
  · intro name row root found rooted
    obtain ⟨rootMade, -⟩ := reads _ root rooted
    rcases (becomes name row found).inv with ⟨old, was, document, created, -⟩ | ⟨-, created, -⟩
    · rw [document] at rooted
      rcases (becomes _ root rooted).inv with ⟨base, stood, -, same, -⟩ | ⟨none, -⟩
      · rw [created, same]
        exact coherent.rooted name old base was stood
      · -- The row refers to a document since before, which has not been made only now.
        obtain ⟨base, stood⟩ := intact.exists_root was
        rw [none] at stood
        cases stood
    · exact rootMade.le_now steady created

end MemoryStore

namespace StoreKind.Models

variable {kind : StoreKind} {store : kind.State} {maps : MemoryStore}

theorem ages {α : Type} (models : kind.Models store maps) (moment : Moment)
    (operation : Operation α) :
    ∃ after, kind.Models (Store.step store moment operation).2 after ∧
      ∀ name, Dated.Ages moment.clock (maps.dated? name) (after.dated? name) := by
  obtain ⟨after, changes, models'⟩ := models.step moment operation
  exact ⟨after, models', changes.ages models.intact⟩

theorem coherent_after (models : kind.Models store .empty) {history : List Asked}
    (steady : Steady (history.map Asked.moment)) :
    ∃ after, kind.Models (Store.after store history) after ∧ after.Coherent history := by
  induction history using List.reverseRecOn with
  | nil => exact ⟨.empty, models, MemoryStore.coherent_empty⟩
  | append_singleton history asked ih =>
      obtain ⟨middle, models', coherent⟩ := ih steady.before
      obtain ⟨after, models'', ages⟩ := models'.ages asked.moment asked.operation
      refine ⟨after, ?_, coherent.step models'.intact steady ages⟩
      rw [Store.after_append]
      exact models''

/-- Between two states of a run the times of a name do not go back. They are those of one row
while there is one all the time. -/
private theorem times_since {earlier later : List Asked}
    (models : kind.Models (Store.after store earlier) maps) (coherent : maps.Coherent earlier)
    (steady : Steady ((earlier ++ later).map Asked.moment)) :
    ∃ after, kind.Models (Store.after store (earlier ++ later)) after ∧
      ∀ name old row, maps.dated? name = some old → after.dated? name = some row →
        (∀ field, (old.time field).nanos ≤ (row.time field).nanos) ∧
          ((∀ middle, middle <+: later → ∃ rows,
            InspectedStore.contents (Store.after store (earlier ++ middle)) = .ok rows ∧
              ∃ standing ∈ rows.dated, standing.name = name) → row.created = old.created) := by
  induction later using List.reverseRecOn with
  | nil =>
      rw [List.append_nil]
      refine ⟨maps, models, fun name old row was is => ?_⟩
      cases was.symm.trans is
      exact ⟨fun _ => Int.le_refl _, fun _ => rfl⟩
  | append_singleton later asked ih =>
      rw [← List.append_assoc] at steady ⊢
      obtain ⟨middle, models', since⟩ := ih steady.before
      obtain ⟨after, models'', ages⟩ := models'.ages asked.moment asked.operation
      rw [Store.after_append]
      refine ⟨after, models'', fun name old row was is => ?_⟩
      have becomes : Dated.Ages asked.moment.clock (middle.dated? name) (some row) :=
        is ▸ ages name
      -- The clock shows no less now than when the earlier row was written.
      have reaches {now : Timestamp} (read : asked.moment.clock.now? = some now)
          (field : SortField) : (old.time field).nanos ≤ now.nanos := by
        obtain ⟨made, changed⟩ := coherent.read name old was
        have reading : (old.time field).IsReading earlier := by
          cases field with
          | createdAt => exact made
          | lastModifiedAt => exact changed
        exact ((reading.append later).append [asked]).le_now steady read
      rcases becomes.inv with ⟨standing, stood, -, created, modified⟩ | ⟨none, created, modified⟩
      · obtain ⟨times, kept⟩ := since name old standing was stood
        refine ⟨fun field => ?_, fun present => ?_⟩
        · cases field with
          | createdAt => simpa only [Dated.time, created] using times .createdAt
          | lastModifiedAt =>
              rcases modified with same | read
              · simpa only [Dated.time, same] using times .lastModifiedAt
              · exact reaches read .lastModifiedAt
        · refine created.trans (kept fun middle before => present middle ?_)
          exact before.trans (List.prefix_append later [asked])
      · refine ⟨fun field => ?_, fun present => ?_⟩
        · cases field with
          | createdAt => exact reaches created .createdAt
          | lastModifiedAt => exact reaches modified .lastModifiedAt
        · obtain ⟨rows, read, standing, member, named⟩ :=
            present later (List.prefix_append later [asked])
          cases models'.contents_eq.symm.trans read
          rw [models'.intact.mem_dated_iff, named, none] at member
          cases member

end StoreKind.Models

/-! ## Rows and listings -/

/-- The times of rows that agree with one another and with the clock over a run. -/
structure Contents.Timely (rows : Contents) (history : List Asked) : Prop where
  /-- Every time is what the clock has shown at some moment of the run, in whole microseconds. -/
  read : ∀ row ∈ rows.dated, ∀ field, (row.time field).isWhole = true ∧
    ∃ asked ∈ history, (row.time field).micros = asked.moment.clock.micros
  ordered : ∀ row ∈ rows.dated, row.created.nanos ≤ row.modified.nanos
  latest : ∀ row ∈ rows.dated, ∀ asked, history.getLast? = some asked →
    row.modified.micros ≤ asked.moment.clock.micros
  /-- No row is older than the document that it is about. -/
  rooted : ∀ row ∈ rows.dated, ∀ document ∈ rows.documents, document.id = row.document →
    document.createdAt.nanos ≤ row.created.nanos

private theorem MemoryStore.Coherent.timely {maps : MemoryStore} {history : List Asked}
    (coherent : maps.Coherent history) (intact : maps.Integrity)
    (steady : Steady (history.map Asked.moment)) : maps.contents.Timely history := by
  have found {row : Dated} (member : row ∈ maps.contents.dated) :
      maps.dated? row.name = some row := intact.mem_dated_iff.1 member
  refine ⟨?_, ?_, ?_, ?_⟩
  · intro row member field
    obtain ⟨made, changed⟩ := coherent.read _ row (found member)
    have reading : (row.time field).IsReading history := by
      cases field with
      | createdAt => exact made
      | lastModifiedAt => exact changed
    obtain ⟨asked, among, read⟩ := reading
    exact ⟨Clock.isWhole_of_now? read, asked, among, Clock.micros_of_now? read⟩
  · intro row member
    exact coherent.ordered _ row (found member)
  · intro row member asked last
    obtain ⟨before, rfl⟩ := List.getLast?_eq_some_iff.1 last
    exact (coherent.read _ row (found member)).2.le_last steady
  · intro row member document stored same
    have listed : document.dated ∈ maps.contents.dated :=
      List.mem_append_left _ (List.mem_append_left _ (List.mem_map_of_mem stored))
    have root := found listed
    rw [show document.dated.name = .document row.document from congrArg RowName.document same]
      at root
    exact coherent.rooted _ row document.dated (found member) root

namespace Scope

variable {α : Type}

/-- The row of the store that has the place of a row of a scope. -/
def dated : Scope α → α → Dated
  | .document _, row => row.dated
  | .principal _, row => row.document.dated

private theorem time_dated (scope : Scope α) (field : SortField) (row : α) :
    (scope.dated row).time field = (scope.orderKey field row).time := by
  cases scope <;> cases field <;> rfl

private theorem dated_mem {scope : Scope α} {rows : Contents} {row : α}
    (member : row ∈ scope.rows rows) : scope.dated row ∈ rows.dated := by
  cases scope with
  | document id =>
      have stored := (List.mem_filter.1 member).1
      exact List.mem_append_left _ (List.mem_append_right _ (List.mem_map_of_mem stored))
  | principal id =>
      obtain ⟨permission, -, read⟩ := List.mem_filterMap.1 member
      rw [Option.ite_none_right_eq_some, Option.map_eq_some_iff] at read
      obtain ⟨-, document, found, rfl⟩ := read
      have stored := List.mem_of_find?_eq_some found
      exact List.mem_append_left _ (List.mem_append_left _ (List.mem_map_of_mem stored))

/-- In one scope the identifier says which row it is. -/
private theorem name_dated {scope : Scope α} {rows rows' : Contents} {a b : α}
    (first : a ∈ scope.rows rows)
    (second : b ∈ scope.rows rows') (same : scope.rowId a = scope.rowId b) :
    (scope.dated a).name = (scope.dated b).name := by
  cases scope with
  | document id =>
      have onFirst := of_decide_eq_true (List.mem_filter.1 first).2
      have onSecond := of_decide_eq_true (List.mem_filter.1 second).2
      exact congrArg RowName.permission
        (Permission.key_eq (Id.eq_of_uuid same) (onFirst.trans onSecond.symm))
  | principal id => exact congrArg RowName.document (Id.eq_of_uuid same)

end Scope

private theorem OrderKey.not_before_of_le {a b : OrderKey} (ids : a.id = b.id)
    (times : b.time.nanos ≤ a.time.nanos) : a.before b = false := by
  rw [Bool.eq_false_iff, ne_eq, before_iff, Timestamp.before_iff, ids, Uuid.before_irrefl]
  intro either
  rcases either with earlier | ⟨-, below⟩
  · omega
  · cases below

/-- While the clock does not go back, every time is a reading of the clock in whole microseconds,
no row is changed before it was made, after the last reading, or made before its document. From
one state of a run to a later one no time of a row goes back, and a row that stays is as old as it
was; so no row moves down in a listing, not even one that is deleted and made again. -/
theorem times_coherent {kind : StoreKind} {store : kind.State} (new : InspectedStore.isNew store)
    {history : List Asked} (steady : Steady (history.map Asked.moment)) :
    ∃ rows, InspectedStore.contents (Store.after store history) = .ok rows ∧
      rows.Timely history ∧
      ∀ earlier later, history = earlier ++ later →
        ∃ before, InspectedStore.contents (Store.after store earlier) = .ok before ∧
          (∀ old ∈ before.dated, ∀ row ∈ rows.dated, old.name = row.name →
            (∀ field, (old.time field).nanos ≤ (row.time field).nanos) ∧
              ((∀ middle, middle <+: later → ∃ between,
                InspectedStore.contents (Store.after store (earlier ++ middle)) = .ok between ∧
                  ∃ standing ∈ between.dated, standing.name = row.name) →
                row.created = old.created)) ∧
          ∀ {α : Type} (scope : Scope α) (field : SortField),
            ∀ old ∈ scope.rows before, ∀ row ∈ scope.rows rows, scope.rowId old = scope.rowId row →
              (scope.orderKey field row).before (scope.orderKey field old) = false := by
  have models := StoreKind.models_new new
  obtain ⟨after, reached, coherent⟩ := models.coherent_after steady
  refine ⟨after.contents, reached.contents_eq, coherent.timely reached.intact steady, ?_⟩
  rintro earlier later rfl
  obtain ⟨maps, stood, coherent'⟩ := models.coherent_after steady.before
  obtain ⟨after', reached', since⟩ := stood.times_since coherent' steady
  have contents : after'.contents = after.contents :=
    Except.ok.inj (reached'.contents_eq.symm.trans reached.contents_eq)
  have rows (old : Dated) (was : old ∈ maps.contents.dated) (row : Dated)
      (is : row ∈ after.contents.dated) (same : old.name = row.name) :=
    since old.name old row (stood.intact.mem_dated_iff.1 was)
      (same ▸ reached'.intact.mem_dated_iff.1 (contents ▸ is))
  refine ⟨maps.contents, stood.contents_eq, ?_, ?_⟩
  · intro old was row is same
    have between := rows old was row is same
    rwa [same] at between
  · intro α scope field old was row is same
    have between := (rows _ (Scope.dated_mem was) _ (Scope.dated_mem is)
      (Scope.name_dated was is same)).1 field
    rw [scope.time_dated, scope.time_dated] at between
    refine OrderKey.not_before_of_le ?_ between
    rw [scope.id_orderKey, scope.id_orderKey, same]

/-- The document of the short history is deleted and made again. Its place is a later one. -/
theorem times_of_remade_document :
    let history := shortHistory ++ [
      ⟨Unit, .ofNumbers 4 4, .deleteDocument ⟨.ofNat 1⟩⟩,
      ⟨DocumentId, .ofNumbers 5 1, .createDocument ⟨.ofNat 7⟩ {}⟩]
    let before := (Store.after MemoryStore.empty shortHistory).contents
    let rows := (Store.after MemoryStore.empty history).contents
    let scope := Scope.principal ⟨.ofNat 7⟩
    Steady (history.map Asked.moment) ∧ rows.Timely history ∧
      ∃ old ∈ scope.rows before, ∃ row ∈ scope.rows rows,
        old.document.createdAt ≠ row.document.createdAt ∧
          (scope.orderKey .createdAt row).before (scope.orderKey .createdAt old) = false := by
  intro history before rows scope
  have steady : Steady (history.map Asked.moment) := by decide
  obtain ⟨-, ⟨⟩, timely, since⟩ := @times_coherent .memory MemoryStore.empty rfl history steady
  obtain ⟨-, ⟨⟩, -, scopes⟩ := since shortHistory _ rfl
  let made (micros : Int) (lower upper) : DocumentPermission :=
    ⟨.ofFields ⟨.ofNat 1⟩ {} ⟨micros, 0, lower, upper⟩, .owner⟩
  have was : made 1 (by decide) (by decide) ∈ scope.rows before := by decide +kernel
  have is : made 5 (by decide) (by decide) ∈ scope.rows rows := by decide +kernel
  exact ⟨steady, timely, _, was, _, is, by decide, scopes scope .createdAt _ was _ is rfl⟩

end DocAccess
