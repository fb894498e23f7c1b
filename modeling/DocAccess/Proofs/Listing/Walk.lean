import DocAccess.Proofs.Listing.Scope
import DocAccess.Proofs.Reachable

/-!
# Walks through a listing

A walk is a sequence of visits. Before each, rows change as rows can, and each gives the
first rows below the position where the visit before it ended. Nothing here looks at how a
store answers.
-/

set_option autoImplicit false

namespace DocAccess

variable {α : Type}

/-- The rows of a listing that lie ahead of a cursor, newest first. -/
def StoreKind.ahead (kind : StoreKind) (scope : Scope α) (levels : List PermissionLevel)
    (contents : Contents) (cursor : Cursor) : List α :=
  rowsBelow (scope.orderKey cursor.sortField) (scope.listed levels contents)
    (kind.seen cursor).key

/-- The rows of a listing that a cursor admits, each once, newest first. -/
structure Scope.Gives (scope : Scope α) (levels : List PermissionLevel) (contents : Contents)
    (cursor : Cursor) (rows : List α) : Prop where
  perm : rows.Perm ((scope.listed levels contents).filter fun row =>
    cursor.admits (scope.orderKey cursor.sortField row))
  descending : Descending (scope.orderKey cursor.sortField) rows

/-- What a visit finds, and what it is given of that. -/
structure Visit (α : Type) where
  contents : Contents
  items : List α

/-- A walk from some rows and a cursor, with the moments of all that is asked on the way. -/
inductive Walk (kind : StoreKind) (scope : Scope α) (levels : List PermissionLevel) :
    Contents → Cursor → List Moment → List (Visit α) → Prop where
  | done {contents : Contents} {cursor : Cursor} : Walk kind scope levels contents cursor [] []
  | visit {before contents : Contents} {cursor : Cursor} {moment : Moment}
      {moments later : List Moment} {size : Nat} {items : List α} {visits : List (Visit α)}
      (evolves : before.Evolves moments contents) (consistent : contents.Consistent)
      (whole : contents.Whole) (positive : 0 < size)
      (page : items = (kind.ahead scope levels contents cursor).take size)
      (walk : Walk kind scope levels contents (scope.next cursor items) later visits) :
      Walk kind scope levels before cursor (moments ++ moment :: later)
        (⟨contents, items⟩ :: visits)

namespace Scope

variable {scope : Scope α} {levels : List PermissionLevel} {contents : Contents} {cursor : Cursor}
  {rows other : List α}

instance [DecidableEq α] : Decidable (scope.Gives levels contents cursor rows) :=
  decidable_of_iff
    (rows.Perm ((scope.listed levels contents).filter fun row =>
        cursor.admits (scope.orderKey cursor.sortField row)) ∧
      Descending (scope.orderKey cursor.sortField) rows)
    ⟨fun given => ⟨given.1, given.2⟩, fun given => ⟨given.1, given.2⟩⟩

theorem Gives.unique (first : scope.Gives levels contents cursor rows)
    (second : scope.Gives levels contents cursor other) : rows = other :=
  first.descending.eq_of_perm (first.perm.trans second.perm.symm) second.descending

end Scope

theorem Scope.sortField_next (scope : Scope α) (cursor : Cursor) (items : List α) :
    (scope.next cursor items).sortField = cursor.sortField := by
  unfold next
  cases items.getLast? <;> rfl

namespace StoreKind

variable {kind : StoreKind} {scope : Scope α} {levels : List PermissionLevel}
  {contents : Contents} {cursor : Cursor} {items : List α}

theorem page_eq (size : Nat) :
    scope.page contents ⟨levels, cursor, size⟩ (kind.seen cursor) =
      ⟨(kind.ahead scope levels contents cursor).take size,
        scope.next cursor ((kind.ahead scope levels contents cursor).take size)⟩ := by
  rw [Scope.page, sortField_seen]
  rfl

theorem ahead_congr {levels' : List PermissionLevel} (same : levels ⊆ levels' ∧ levels' ⊆ levels) :
    kind.ahead scope levels contents cursor = kind.ahead scope levels' contents cursor := by
  rw [ahead, ahead, Scope.listed_congr same]

theorem mem_ahead {row : α} : row ∈ kind.ahead scope levels contents cursor ↔
    row ∈ scope.listed levels contents ∧
      (kind.seen cursor).admits (scope.orderKey cursor.sortField row) = true :=
  mem_rowsBelow

theorem descending_ahead (consistent : contents.Consistent) :
    Descending (scope.orderKey cursor.sortField) (kind.ahead scope levels contents cursor) :=
  descending_rowsBelow (scope.listed_nodup consistent levels cursor.sortField) _

theorem gives_seen (consistent : contents.Consistent) :
    scope.Gives levels contents (kind.seen cursor)
      (kind.ahead scope levels contents cursor) := by
  constructor
  · rw [ahead, sortField_seen]
    exact rowsBelow_perm _ _ _
  · rw [sortField_seen]
    exact descending_ahead consistent

theorem ahead_of_gives (consistent : contents.Consistent) {rows : List α}
    (gives : scope.Gives levels contents (kind.seen cursor) rows) :
    kind.ahead scope levels contents cursor = rows :=
  (gives_seen consistent).unique gives

theorem Holds.list_eq {store : kind.State} (holds : kind.Holds store contents)
    (there : scope.missing? contents = none) (chosen : levels ≠ []) {size : Nat}
    (positive : 0 < size) (moment : Moment) (cursor : Cursor) :
    Store.step store moment (scope.list ⟨levels, cursor, size⟩) =
      (.ok ⟨(kind.ahead scope levels contents cursor).take size,
        scope.next cursor ((kind.ahead scope levels contents cursor).take size)⟩, store) := by
  rw [holds.step_list, Scope.answer_ok_iff.2 ⟨chosen, positive, there, rfl⟩, page_eq]

theorem Holds.list_of_gives {store : kind.State} (holds : kind.Holds store contents)
    (there : scope.missing? contents = none) (chosen : levels ≠ []) {size : Nat}
    (positive : 0 < size) (moment : Moment) {rows : List α}
    (gives : scope.Gives levels contents (kind.seen cursor) rows) :
    Store.step store moment (scope.list ⟨levels, cursor, size⟩) =
      (.ok ⟨rows.take size, scope.next cursor (rows.take size)⟩, store) := by
  rw [holds.list_eq there chosen positive, ahead_of_gives holds.consistent gives]

theorem ids_ahead (consistent : contents.Consistent) :
    ((kind.ahead scope levels contents cursor).map scope.rowId).Nodup := by
  have listed := (List.pairwise_map.1 (scope.rows_nodup consistent)).filter fun row =>
    levels.contains (scope.level row)
  have below := listed.filter fun row =>
    (scope.orderKey cursor.sortField row).before (kind.seen cursor).key
  exact List.pairwise_map.2 (((rowsBelow_perm _ _ _).pairwise_iff Ne.symm).2 below)

theorem seen_next (whole : contents.Whole)
    (listed : ∀ row ∈ items, row ∈ scope.listed levels contents) :
    items = [] ∧ kind.seen (scope.next cursor items) = kind.seen cursor ∨
      ∃ front last, items = front ++ [last] ∧
        (kind.seen (scope.next cursor items)).key = scope.orderKey cursor.sortField last := by
  cases ends : items.getLast? with
  | none =>
      obtain rfl := List.getLast?_eq_none_iff.1 ends
      exact .inl ⟨rfl, rfl⟩
  | some last =>
      obtain ⟨front, rfl⟩ := List.getLast?_eq_some_iff.1 ends
      have member : last ∈ front ++ [last] := List.mem_append_right front List.mem_cons_self
      have stamped := Scope.stamped_of_mem (Scope.mem_rows_of_listed (listed last member))
        cursor.sortField
      refine .inr ⟨front, last, rfl, ?_⟩
      rw [Scope.next, ends, seen_of_whole (whole _ stamped.hasTime)]
      rfl

theorem ahead_next (consistent : contents.Consistent) (whole : contents.Whole) {size : Nat}
    (nonempty : items ≠ []) (page : items = (kind.ahead scope levels contents cursor).take size) :
    kind.ahead scope levels contents (scope.next cursor items) =
      (kind.ahead scope levels contents cursor).drop size := by
  have listed (row : α) (member : row ∈ items) : row ∈ scope.listed levels contents :=
    (mem_ahead.1 (List.mem_of_mem_take (page ▸ member))).1
  have distinct := scope.listed_nodup consistent levels cursor.sortField
  rcases seen_next whole listed with ⟨empty, -⟩ | ⟨front, last, ends, seen⟩
  · exact absurd empty nonempty
  · rw [ahead, seen, Scope.sortField_next]
    exact rowsBelow_last distinct (page.symm.trans ends)

end StoreKind

namespace Walk

open StoreKind (mem_ahead descending_ahead ids_ahead ahead_next)

variable {kind : StoreKind} {scope : Scope α} {levels : List PermissionLevel}
  {before : Contents} {cursor : Cursor} {moments : List Moment} {visits : List (Visit α)}

theorem items_subset (walk : Walk kind scope levels before cursor moments visits) :
    ∀ visit ∈ visits, visit.items ⊆ scope.listed levels visit.contents := by
  induction walk with
  | done => exact fun visit member => absurd member List.not_mem_nil
  | visit evolves consistent whole positive page walk ih =>
      intro visit member
      rcases List.mem_cons.1 member with rfl | later
      · exact fun row given => (mem_ahead.1 (List.mem_of_mem_take (page ▸ given))).1
      · exact ih visit later

/-- The rows of a walk go down strictly, all below where it began. -/
theorem descending (walk : Walk kind scope levels before cursor moments visits) :
    Descending (scope.orderKey cursor.sortField) (visits.flatMap Visit.items) ∧
      ∀ row ∈ visits.flatMap Visit.items,
        (kind.seen cursor).admits (scope.orderKey cursor.sortField row) = true := by
  induction walk with
  | done => exact ⟨List.Pairwise.nil, fun row member => absurd member List.not_mem_nil⟩
  | @visit before contents cursor moment moments later size items visits evolves consistent whole
      positive page walk ih =>
      rw [Scope.sortField_next] at ih
      obtain ⟨restDescending, restBelow⟩ := ih
      have inListing (row : α) (member : row ∈ items) :
          row ∈ scope.listed levels contents ∧
            (kind.seen cursor).admits (scope.orderKey cursor.sortField row) = true :=
        mem_ahead.1 (List.mem_of_mem_take (page ▸ member))
      have pageDescending : Descending (scope.orderKey cursor.sortField) items :=
        page ▸ (descending_ahead consistent).take
      rw [List.flatMap_cons]
      rcases kind.seen_next whole fun row member => (inListing row member).1 with
        ⟨rfl, same⟩ | ⟨front, last, rfl, below⟩
      · rw [same] at restBelow
        exact ⟨restDescending, restBelow⟩
      · -- The last row of the page separates it from the rest of the walk.
        simp only [Cursor.admits, below] at restBelow
        have aboveLast (row : α) (member : row ∈ front ++ [last]) (lower : OrderKey)
            (first : lower.before (scope.orderKey cursor.sortField last) = true) :
            lower.before (scope.orderKey cursor.sortField row) = true := by
          rcases List.mem_append.1 member with inFront | isLast
          · have lastBelow := (List.pairwise_append.1 pageDescending).2.2 row inFront last
              List.mem_cons_self
            exact OrderKey.before_trans first lastBelow
          · rw [List.mem_singleton.1 isLast]
            exact first
        refine ⟨List.pairwise_append.2 ⟨pageDescending, restDescending, ?_⟩, ?_⟩
        · intro row member row' member'
          exact aboveLast row member _ (restBelow row' member')
        · intro row member
          rcases List.mem_append.1 member with inPage | inRest
          · exact (inListing row inPage).2
          · have lastBelow := (inListing last (List.mem_append_right front List.mem_cons_self)).2
            exact OrderKey.before_trans (restBelow row inRest) lastBelow

/-- A walk that has come to an empty page has been given whatever stayed in its place. -/
theorem covers (walk : Walk kind scope levels before cursor moments visits) {position : OrderKey}
    (admitted : (kind.seen cursor).admits position = true)
    (present : ∀ visit ∈ visits, ∃ row ∈ scope.listed levels visit.contents,
      scope.orderKey cursor.sortField row = position)
    (ended : ∃ visit ∈ visits, visit.items = []) :
    ∃ row ∈ visits.flatMap Visit.items, scope.orderKey cursor.sortField row = position := by
  induction walk with
  | done =>
      obtain ⟨visit, member, -⟩ := ended
      exact absurd member List.not_mem_nil
  | @visit before contents cursor moment moments later size items visits evolves consistent whole
      positive page walk ih =>
      obtain ⟨row, listed, rfl⟩ := present ⟨contents, items⟩ List.mem_cons_self
      have ahead : row ∈ kind.ahead scope levels contents cursor :=
        mem_ahead.2 ⟨listed, admitted⟩
      by_cases inPage : row ∈ items
      · exact ⟨row, List.mem_flatMap.2 ⟨_, List.mem_cons_self, inPage⟩, rfl⟩
      · rw [Scope.sortField_next] at ih
        have nonempty : items ≠ [] := by
          intro empty
          rcases List.take_eq_nil_iff.1 (page.symm.trans empty) with zero | none
          · omega
          · exact List.not_mem_nil (none ▸ ahead)
        have rest : row ∈ kind.ahead scope levels contents (scope.next cursor items) := by
          rw [ahead_next consistent whole nonempty page]
          rw [← List.take_append_drop size (kind.ahead _ _ _ _), ← page] at ahead
          exact (List.mem_append.1 ahead).resolve_left inPage
        obtain ⟨visit, member, isEmpty⟩ := ended
        rcases List.mem_cons.1 member with rfl | later
        · exact absurd isEmpty nonempty
        · have admitted' := Scope.sortField_next scope cursor items ▸ (mem_ahead.1 rest).2
          obtain ⟨found, returned, same⟩ := ih admitted'
            (fun other among => present other (List.mem_cons_of_mem _ among))
            ⟨visit, later, isEmpty⟩
          exact ⟨found, List.mem_append_right items returned, same⟩

/-- On the way the time by an identifier does not sink. -/
private theorem le_time (walk : Walk kind scope levels before cursor moments visits) {id : Uuid}
    {bound : Int}
    (early : ∀ time, scope.Stamped cursor.sortField before id time → bound ≤ time.nanos)
    (late : ∀ moment ∈ moments, ∀ now, moment.clock.now? = some now → bound ≤ now.nanos)
    {row : α} (returned : row ∈ visits.flatMap Visit.items) (named : scope.rowId row = id) :
    bound ≤ (scope.orderKey cursor.sortField row).time.nanos := by
  induction walk with
  | done => exact absurd returned List.not_mem_nil
  | @visit before contents cursor moment moments later size items visits evolves consistent whole
      positive page walk ih =>
      rw [Scope.sortField_next] at ih
      have lateBefore : ∀ moment ∈ moments, ∀ now, moment.clock.now? = some now →
          bound ≤ now.nanos := fun other member =>
        late other (List.mem_append_left _ member)
      have bounded (time : Timestamp)
          (stamped : scope.Stamped cursor.sortField contents id time) : bound ≤ time.nanos :=
        stamped.le_of_evolves evolves early lateBefore
      rcases List.mem_append.1 returned with inPage | inRest
      · have listed := (mem_ahead.1 (List.mem_of_mem_take (page ▸ inPage))).1
        have stamped := Scope.stamped_of_mem (Scope.mem_rows_of_listed listed) cursor.sortField
        exact bounded _ (named ▸ stamped)
      · exact ih bounded (fun other member => late other
          (List.mem_append_right _ (List.mem_cons_of_mem _ member))) inRest

/-- While the clock does not go backwards, a walk gives no row of an identifier twice. -/
theorem ids_nodup (walk : Walk kind scope levels before cursor moments visits)
    (past : before.IsPast moments) (steady : Steady moments) :
    ((visits.flatMap Visit.items).map scope.rowId).Nodup := by
  induction walk with
  | done => exact List.nodup_nil
  | @visit before contents cursor moment moments later size items visits evolves consistent whole
      positive page walk ih =>
      have walked : Walk kind scope levels before cursor (moments ++ moment :: later)
          (⟨contents, items⟩ :: visits) :=
        .visit evolves consistent whole positive page walk
      have descends := walked.descending.1
      have late : contents.IsPast later :=
        (evolves.isPast past steady).of_subset (List.subset_cons_self moment later)
      have steadyLater := (List.pairwise_cons.1 (List.pairwise_append.1 steady).2.1).2
      have inListing (row : α) (member : row ∈ items) : row ∈ scope.listed levels contents :=
        (mem_ahead.1 (List.mem_of_mem_take (page ▸ member))).1
      have once : (items.map scope.rowId).Nodup := by
        rw [page, List.map_take]
        exact (ids_ahead consistent).take
      rw [List.flatMap_cons] at descends ⊢
      rw [List.map_append]
      refine List.nodup_append.2 ⟨once, ih late steadyLater, ?_⟩
      intro id first id' second same
      obtain ⟨row, inPage, rfl⟩ := List.mem_map.1 first
      obtain ⟨row', inRest, rfl⟩ := List.mem_map.1 second
      have stamped := Scope.stamped_of_mem (Scope.mem_rows_of_listed (inListing row inPage))
        cursor.sortField
      -- The later row is below, so its time is earlier; but times by an identifier do not sink.
      have sinks := (List.pairwise_append.1 descends).2.2 row inPage row' inRest
      rw [OrderKey.before_iff, scope.id_orderKey, scope.id_orderKey, same, Uuid.before_irrefl,
        Timestamp.before_iff] at sinks
      have rises : (scope.orderKey cursor.sortField row).time.nanos ≤
          (scope.orderKey cursor.sortField row').time.nanos := by
        rw [← scope.sortField_next cursor items] at stamped ⊢
        refine walk.le_time ?_ (late _ stamped.hasTime) inRest same.symm
        intro time other
        exact Int.le_of_eq (congrArg Timestamp.nanos (stamped.unique consistent other))
      rcases sinks with sinks | ⟨-, impossible⟩
      · omega
      · cases impossible

end Walk
end DocAccess
