import DocAccess.Proofs.Contents
import DocAccess.Proofs.Memory.Integrity

/-!
# How rows change

A time that is stored is the reading of some operation, and stays with its row until an
operation on the row puts its own reading in its place. An identifier of a document has
been drawn by the operation that made the document.
-/

set_option autoImplicit false

namespace DocAccess

/-- The time of a document by which listings are ordered. -/
def Document.time (document : Document) : SortField → Timestamp
  | .createdAt => document.createdAt
  | .lastModifiedAt => document.lastModifiedAt

/-- The time of a permission by which listings are ordered. -/
def Permission.time (permission : Permission) : SortField → Timestamp
  | .createdAt => permission.createdAt
  | .lastModifiedAt => permission.lastModifiedAt

/-- The time of a guest. -/
def Guest.time (guest : Guest) : SortField → Timestamp :=
  fun _ => guest.createdAt

/-- Every time of the later rows was that of the row of the same name before, or has just
been read. -/
def Restamped {α κ : Type} (name : α → κ) (time : α → SortField → Timestamp) (clock : Clock)
    (before after : List α) : Prop :=
  ∀ row ∈ after, ∀ field, (∃ old ∈ before, name old = name row ∧ time old field = time row field) ∨
    clock.now? = some (time row field)

/-- What an operation at a moment can do to rows. -/
structure Contents.Successor (moment : Moment) (before after : Contents) : Prop where
  documents : Restamped (·.id) Document.time moment.clock before.documents after.documents
  permissions :
    Restamped Permission.key Permission.time moment.clock before.permissions after.permissions
  guests : Restamped (·.id) Guest.time moment.clock before.guests after.guests
  minted : ∀ document ∈ after.documents,
    (∃ old ∈ before.documents, old.id = document.id) ∨ document.id = ⟨moment.drawn⟩

namespace Restamped

variable {α κ : Type} {name : α → κ} {time : α → SortField → Timestamp} {clock : Clock}

theorem of_subset {before after : List α} (kept : ∀ row ∈ after, row ∈ before) :
    Restamped name time clock before after := by
  intro row member field
  exact .inl ⟨row, kept row member, rfl, rfl⟩

theorem refl (rows : List α) : Restamped name time clock rows rows :=
  of_subset fun _ member => member

variable {ι : Type} [Ord ι] [Std.TransOrd ι] [Std.LawfulEqOrd ι] {map : Std.ExtTreeMap ι α}
  {key : ι} {value : α}

/-- A row that is written has the times of the one that was there or the time of now. -/
private theorem insert (stamped : ∀ field, (∃ old, map[key]? = some old ∧ name old = name value ∧
      time old field = time value field) ∨ clock.now? = some (time value field)) :
    Restamped name time clock (map.toList.map (·.2)) ((map.insert key value).toList.map (·.2)) := by
  intro row member field
  obtain ⟨other, found⟩ := Map.mem_values.1 member
  rcases Map.getElem?_insert_eq_some found with ⟨rfl, rfl⟩ | ⟨_, unchanged⟩
  · rcases stamped field with ⟨old, looked, named, same⟩ | read
    · exact .inl ⟨old, Map.mem_values.2 ⟨other, looked⟩, named, same⟩
    · exact .inr read
  · exact .inl ⟨row, Map.mem_values.2 ⟨other, unchanged⟩, rfl, rfl⟩

private theorem erase : Restamped name time clock (map.toList.map (·.2))
    ((map.erase key).toList.map (·.2)) := by
  refine of_subset fun row member => ?_
  obtain ⟨other, found⟩ := Map.mem_values.1 member
  exact Map.mem_values.2 ⟨other, (Map.getElem?_erase_eq_some.1 found).2⟩

private theorem filter {keeps : ι → α → Bool} : Restamped name time clock (map.toList.map (·.2))
    ((map.filter keeps).toList.map (·.2)) := by
  refine of_subset fun row member => ?_
  obtain ⟨other, found⟩ := Map.mem_values.1 member
  exact Map.mem_values.2 ⟨other, (Map.getElem?_filter_eq_some.1 found).1⟩

end Restamped

namespace Contents

/-- Whether a time is stored in some row. -/
def HasTime (contents : Contents) (time : Timestamp) : Prop :=
  (∃ document ∈ contents.documents, ∃ field, document.time field = time) ∨
    (∃ permission ∈ contents.permissions, ∃ field, permission.time field = time) ∨
    ∃ guest ∈ contents.guests, guest.createdAt = time

theorem Successor.refl (moment : Moment) (contents : Contents) :
    contents.Successor moment contents :=
  ⟨.refl _, .refl _, .refl _, fun document member => .inl ⟨document, member, rfl⟩⟩

theorem Successor.hasTime {moment : Moment} {before after : Contents}
    (successor : before.Successor moment after) {time : Timestamp} (stored : after.HasTime time) :
    before.HasTime time ∨ moment.clock.now? = some time := by
  rcases stored with ⟨document, member, field, rfl⟩ | ⟨permission, member, field, rfl⟩ |
    ⟨guest, member, rfl⟩
  · refine (successor.documents document member field).imp_left ?_
    intro given
    obtain ⟨old, present, -, same⟩ := given
    exact .inl ⟨old, present, field, same⟩
  · refine (successor.permissions permission member field).imp_left ?_
    intro given
    obtain ⟨old, present, -, same⟩ := given
    exact .inr (.inl ⟨old, present, field, same⟩)
  · refine (successor.guests guest member .createdAt).imp_left ?_
    intro given
    obtain ⟨old, present, -, same⟩ := given
    exact .inr (.inr ⟨old, present, same⟩)

/-- All times that are stored are whole microseconds. -/
def Whole (contents : Contents) : Prop :=
  ∀ time, contents.HasTime time → time.isWhole = true

/-- No clock of some moments shows an earlier time than one that is stored. -/
def IsPast (contents : Contents) (moments : List Moment) : Prop :=
  ∀ time, contents.HasTime time →
    ∀ moment ∈ moments, ∀ now, moment.clock.now? = some now → time.nanos ≤ now.nanos

theorem IsPast.of_subset {contents : Contents} {moments later : List Moment}
    (past : contents.IsPast moments) (kept : later ⊆ moments) : contents.IsPast later :=
  fun time stored moment member => past time stored moment (kept member)

theorem Successor.whole {moment : Moment} {before after : Contents}
    (successor : before.Successor moment after) (whole : before.Whole) : after.Whole := by
  intro time stored
  rcases successor.hasTime stored with old | read
  · exact whole time old
  · exact Clock.isWhole_of_now? read

/-- What operations at some moments, one after the other, can do to rows. -/
inductive Evolves : Contents → List Moment → Contents → Prop where
  | refl (contents : Contents) : Evolves contents [] contents
  | step {moment : Moment} {moments : List Moment} {before middle after : Contents}
      (successor : before.Successor moment middle) (evolves : Evolves middle moments after) :
      Evolves before (moment :: moments) after

namespace Evolves

variable {moments : List Moment} {before after : Contents}

theorem hasTime (evolves : before.Evolves moments after) {time : Timestamp}
    (stored : after.HasTime time) :
    before.HasTime time ∨ ∃ moment ∈ moments, moment.clock.now? = some time := by
  induction evolves with
  | refl contents => exact .inl stored
  | @step moment moments before middle after successor evolves ih =>
      rcases ih stored with old | ⟨later, member, read⟩
      · exact (successor.hasTime old).imp_right fun read => ⟨moment, List.mem_cons_self, read⟩
      · exact .inr ⟨later, List.mem_cons_of_mem moment member, read⟩

theorem minted (evolves : before.Evolves moments after) {document : Document}
    (stored : document ∈ after.documents) :
    (∃ old ∈ before.documents, old.id = document.id) ∨
      ∃ moment ∈ moments, document.id = ⟨moment.drawn⟩ := by
  induction evolves generalizing document with
  | refl contents => exact .inl ⟨document, stored, rfl⟩
  | @step moment moments before middle after successor evolves ih =>
      rcases ih stored with ⟨old, member, same⟩ | ⟨later, member, drawn⟩
      · rcases successor.minted old member with older | drawn
        · exact .inl (same ▸ older)
        · exact .inr ⟨moment, List.mem_cons_self, same.symm.trans drawn⟩
      · exact .inr ⟨later, List.mem_cons_of_mem moment member, drawn⟩

/-- Once a time is stored, a clock that does not go backwards shows no earlier one. -/
theorem isPast (evolves : before.Evolves moments after) {later : List Moment}
    (past : before.IsPast (moments ++ later)) (steady : Steady (moments ++ later)) :
    after.IsPast later := by
  intro time stored moment member now read
  rcases evolves.hasTime stored with old | ⟨earlier, among, reading⟩
  · exact past time old moment (List.mem_append_right moments member) now read
  · have reached := (List.pairwise_append.1 steady).2.2 earlier among moment member
    exact reached.now?_le reading read

end Evolves
end Contents

namespace MemoryStore

theorem Change.successor {store after : MemoryStore} {moment : Moment} {α : Type}
    {operation : Operation α} {outcome : Outcome α}
    (changes : Change store moment operation outcome after) :
    store.contents.Successor moment after.contents := by
  -- Most changes leave the documents as they are.
  have kept (document : Document) (member : document ∈ store.contents.documents) :
      (∃ old ∈ store.contents.documents, old.id = document.id) ∨ document.id = ⟨moment.drawn⟩ :=
    .inl ⟨document, member, rfl⟩
  have changed {id : DocumentId} {old new : Document} (found : store.documents[id]? = some old)
      (same : old.id = new.id) (document : Document)
      (member : document ∈ (store.documents.insert id new).toList.map (·.2)) :
      (∃ old ∈ store.contents.documents, old.id = document.id) ∨
        document.id = ⟨moment.drawn⟩ := by
    obtain ⟨other, looked⟩ := Map.mem_values.1 member
    rcases Map.getElem?_insert_eq_some looked with ⟨rfl, rfl⟩ | ⟨_, unchanged⟩
    · exact .inl ⟨old, Map.mem_values.2 ⟨_, found⟩, same⟩
    · exact .inl ⟨document, Map.mem_values.2 ⟨other, unchanged⟩, rfl⟩
  cases changes with
  | refused => exact .refl moment _
  | answered => exact .refl moment _
  | documentMade read fresh =>
      refine ⟨.insert fun field => ?_, .insert fun field => ?_, .refl _, ?_⟩
      · cases field <;> exact .inr read
      · cases field <;> exact .inr read
      · intro document member
        obtain ⟨other, looked⟩ := Map.mem_values.1 member
        rcases Map.getElem?_insert_eq_some looked with ⟨-, rfl⟩ | ⟨_, unchanged⟩
        · exact .inr rfl
        · exact kept document (Map.mem_values.2 ⟨other, unchanged⟩)
  | documentChanged read sets found =>
      refine ⟨.insert fun field => ?_, .refl _, .refl _, changed found rfl⟩
      cases field with
      | createdAt => exact .inl ⟨_, found, rfl, rfl⟩
      | lastModifiedAt => exact .inr read
  | documentDeleted found =>
      refine ⟨.erase, .filter, .filter, fun document member => ?_⟩
      obtain ⟨other, looked⟩ := Map.mem_values.1 member
      exact kept document (Map.mem_values.2 ⟨other, (Map.getElem?_erase_eq_some.1 looked).2⟩)
  | userAdded read found fresh =>
      refine ⟨.refl _, .insert fun field => ?_, .refl _, kept⟩
      cases field <;> exact .inr read
  | userChanged read found held byUser =>
      refine ⟨.refl _, .insert fun field => ?_, .refl _, kept⟩
      cases field with
      | createdAt => exact .inl ⟨_, held, rfl, rfl⟩
      | lastModifiedAt => exact .inr read
  | guestChanged read found held byGuest =>
      refine ⟨.refl _, .insert fun field => ?_, .refl _, kept⟩
      cases field with
      | createdAt => exact .inl ⟨_, held, rfl, rfl⟩
      | lastModifiedAt => exact .inr read
  | permissionDeleted held => exact ⟨.refl _, .erase, .refl _, kept⟩
  | guestMade read found fresh unheld =>
      refine ⟨.refl _, .insert fun field => ?_, .insert fun field => ?_, kept⟩
      · cases field <;> exact .inr read
      · exact .inr read
  | brokenOff unread => exact ⟨.refl _, .refl _, .refl _, kept⟩
  | documentHalfChanged unread found =>
      refine ⟨.insert fun field => ?_, .refl _, .refl _, changed found rfl⟩
      cases field <;> exact .inl ⟨_, found, rfl, rfl⟩
  | guestHalfChanged unread found held =>
      refine ⟨.refl _, .insert fun field => ?_, .refl _, kept⟩
      cases field <;> exact .inl ⟨_, held, rfl, rfl⟩

theorem successor_step (store : MemoryStore) (moment : Moment) {α : Type}
    (operation : Operation α) :
    store.contents.Successor moment (store.step moment operation).2.contents :=
  (change_step store moment operation).successor

theorem not_hasTime_empty (time : Timestamp) : ¬ empty.contents.HasTime time := by
  intro either
  rcases either with ⟨document, member, -⟩ | ⟨permission, member, -⟩ | ⟨guest, member, -⟩
  all_goals
    obtain ⟨key, found⟩ := Map.mem_values.1 member
    simp [empty] at found

end MemoryStore
end DocAccess
