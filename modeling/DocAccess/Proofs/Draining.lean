import DocAccess.Proofs.Listing.Pages
import DocAccess.Proofs.Traversal
import DocAccess.Testing.Drain

/-!
# Draining

A listing that is followed while nothing changes is given in full, on as few pages as can be,
and then ends. What it leaves out from the beginning is what the clock has not passed.
-/

set_option autoImplicit false

namespace DocAccess

open Testing

variable {α : Type}

/-- A page before which others ask nothing. -/
def Stretch.alone (levels : List PermissionLevel) (size : Nat) (moment : Moment) : Stretch :=
  ⟨[], moment, levels, size⟩

namespace Scope

/-- All rows of a listing from its beginning, by a session. -/
def drain {σ : Type} [Store σ] (scope : Scope α) (levels : List PermissionLevel)
    (sortField : SortField) (size : Nat) : Run σ (List α) :=
  match scope with
  | .document id => drainPermissions id levels sortField size
  | .principal id => drainDocuments id levels sortField size

/-- Whether the identifiers by which the rows are told apart have been drawn. -/
def isMinted : Scope α → Bool
  | .document _ => false
  | .principal _ => true

end Scope

variable {kind : StoreKind} {store : kind.State} {contents : Contents} {scope : Scope α}
  {levels : List PermissionLevel} {size : Nat} {cursor : Cursor} {rows : List α}
  {pages : List (List α)}

/-- A listing that could be answered finds the lock poisoned. -/
theorem StoreKind.Broken.step_list {listing : Listing} (broken : kind.Broken store)
    (chosen : listing.levels ≠ []) (positive : 0 < listing.pageSize) (moment : Moment) :
    Store.step store moment (scope.list listing) =
      (.error (.repository (scope.list listing).name .poisoned), store) := by
  apply broken.refused
  rcases listing.validate_cases with ⟨-, -, checked, valid⟩ | ⟨unchosen | empty, -⟩
  · cases scope with
    | document id => simp [Scope.list, Action.reachesStore, valid, Except.toBool]
    | principal id => simp [Scope.list, Action.reachesStore, valid, Except.toBool]
  · exact absurd unchosen chosen
  · exact absurd empty (Nat.pos_iff_ne_zero.1 positive)

namespace StoreKind.Holds

theorem gives_ahead (holds : kind.Holds store contents)
    (whole : cursor.lastSeenTime.isWhole = true) :
    scope.Gives levels contents cursor (kind.ahead scope levels contents cursor) := by
  have gives : scope.Gives levels contents (kind.seen cursor)
      (kind.ahead scope levels contents cursor) := gives_seen holds.consistent
  rwa [seen_of_whole whole] at gives

theorem ahead_drop (holds : kind.Holds store contents)
    (lies : kind.ahead scope levels contents cursor = rows) (some : rows.take size ≠ []) :
    kind.ahead scope levels contents (scope.next cursor (rows.take size)) = rows.drop size := by
  rw [ahead_next holds.consistent holds.whole some (congrArg _ lies.symm), lies]

/-- Pages that are asked for one after the other are those that the rows ahead fill, and an
empty one. -/
private theorem traverse_alone (holds : kind.Holds store contents)
    (there : scope.missing? contents = none) (chosen : levels ≠ []) (positive : 0 < size)
    (paged : Paged size rows pages) (cursor : Cursor)
    (lies : kind.ahead scope levels contents cursor = rows) {moments : List Moment}
    (enough : moments.length = pages.length + 1) :
    ∃ served, traverse scope store cursor (moments.map (Stretch.alone levels size)) = .ok served ∧
      served.map (fun served => served.page.items) = pages ++ [[]] := by
  induction paged generalizing cursor moments with
  | nil =>
      obtain ⟨moment, rfl⟩ := List.length_eq_one_iff.1 enough
      have empty : (kind.ahead scope levels contents cursor).take size = [] := by
        rw [lies, List.take_nil]
      exact ⟨_, holds.traverse_cons there chosen positive empty rfl, rfl⟩
  | @cons rows pages nonempty rest ih =>
      cases moments with
      | nil => cases enough
      | cons moment moments =>
          have page : (kind.ahead scope levels contents cursor).take size = rows.take size :=
            congrArg _ lies
          have some := (Paged.cons nonempty rest).page_ne_nil positive _ List.mem_cons_self
          have next := holds.ahead_drop lies some
          obtain ⟨served, onward, items⟩ := ih _ next (Nat.succ.inj enough)
          refine ⟨_, holds.traverse_cons there chosen positive page onward, ?_⟩
          rw [List.map_cons, items]
          rfl

end StoreKind.Holds

/-! ## Sessions -/

namespace Testing

@[simp]
theorem Run.store_record {σ β : Type} (operation : Operation β) (outcome : Outcome β)
    (session : Session σ) : (Run.record operation outcome session).store = session.store := by
  cases outcome <;> rfl

@[simp]
theorem Run.injected_record {σ β : Type} (operation : Operation β) (outcome : Outcome β)
    (session : Session σ) :
    (Run.record operation outcome session).injected = session.injected := by
  cases outcome <;> rfl

/-- Whether calls reach a store. -/
structure Session.Reaches {σ : Type} (session : Session σ) (store : σ) : Prop where
  store_eq : session.store = store
  injected_eq : session.injected = none

variable {σ : Type} {fetch : Cursor → Run σ (Page α)} {session after : Session σ} {page : Page α}

private theorem drainFrom_isEmpty (fetched : fetch cursor session = (.ok page, after))
    (ended : page.items = []) (count : Nat) :
    (drainFrom fetch size (count + 1) cursor session).1 = .ok [] := by
  simp [drainFrom, bind, Run.bind, fetched, Page.isEmpty, ended, pure]

private theorem drainFrom_page (fetched : fetch cursor session = (.ok page, after))
    (more : page.items ≠ []) (fits : page.items.length ≤ size) (count : Nat) :
    (drainFrom fetch size (count + 1) cursor session).1 =
      (drainFrom fetch size count page.next after).1.bind fun rest => .ok (page.items ++ rest) := by
  have notEmpty : page.isEmpty = false := by
    simpa [Page.isEmpty] using more
  cases onward : drainFrom fetch size count page.next after with
  | mk outcome last =>
      cases outcome <;>
        simp [drainFrom, bind, Run.bind, fetched, notEmpty, Run.ensure, fits, pure, onward,
          Outcome.bind]

private theorem drainFrom_error {failure : StoreError}
    (fetched : fetch cursor session = (.error failure, after)) (count : Nat) :
    drainFrom fetch size (count + 1) cursor session = (.error failure, after) := by
  simp only [drainFrom, bind, Run.bind, fetched]

end Testing

namespace StoreKind.Broken

variable {session : Session kind.State}

private theorem call_list (broken : kind.Broken store) (reaches : session.Reaches store)
    (chosen : levels ≠ []) (positive : 0 < size) (cursor : Cursor) :
    ∃ after, Run.call (scope.list ⟨levels, cursor, size⟩) session =
        (.error (.repository (scope.list ⟨levels, cursor, size⟩).name .poisoned), after) ∧
      after.store = store := by
  obtain ⟨rfl, clear⟩ := reaches
  have refused (moment : Moment) :
      Store.step session.store moment (scope.list ⟨levels, cursor, size⟩) = _ :=
    broken.step_list chosen positive moment
  simp only [Run.call, clear, Option.filter_none, refused]
  exact ⟨_, rfl, by simp⟩

/-- Draining ends at the first page, which finds the lock poisoned. -/
private theorem drain_eq (broken : kind.Broken store) (reaches : session.Reaches store)
    (chosen : levels ≠ []) (positive : 0 < size)
    (begins : Cursor.beginning? session.clock cursor.sortField = some cursor) :
    ∃ after, scope.drain levels cursor.sortField size session =
        (.error (.repository (scope.list ⟨levels, cursor, size⟩).name .poisoned), after) ∧
      after.store = store := by
  obtain ⟨after, called, kept⟩ := broken.call_list reaches chosen positive cursor
  have drains : drainFrom (fun cursor => Run.call (scope.list ⟨levels, cursor, size⟩)) size
      maxPages cursor session = _ := drainFrom_error called 999
  refine ⟨after, ?_, kept⟩
  rw [← drains]
  cases scope <;>
    simp only [Scope.drain, drainPermissions, drainDocuments, bind, Run.bind, Run.beginning,
      begins, Scope.list]

end StoreKind.Broken

namespace StoreKind.Holds

variable {session : Session kind.State}

private theorem call_list (holds : kind.Holds store contents) (reaches : session.Reaches store)
    (there : scope.missing? contents = none) (chosen : levels ≠ []) (positive : 0 < size)
    (cursor : Cursor) :
    ∃ after, Run.call (scope.list ⟨levels, cursor, size⟩) session =
        (.ok ⟨(kind.ahead scope levels contents cursor).take size,
          scope.next cursor ((kind.ahead scope levels contents cursor).take size)⟩, after) ∧
      after.Reaches store := by
  obtain ⟨rfl, clear⟩ := reaches
  simp only [Run.call, clear, Option.filter_none, holds.list_eq there chosen positive]
  exact ⟨_, rfl, by simp, by simp⟩

/-- Fetching ends with the empty page after those that the rows ahead fill, if so many may be
fetched. -/
private theorem drainFrom_eq (holds : kind.Holds store contents)
    (there : scope.missing? contents = none)
    (chosen : levels ≠ []) (positive : 0 < size) (paged : Paged size rows pages) (cursor : Cursor)
    (lies : kind.ahead scope levels contents cursor = rows) (reaches : session.Reaches store)
    (limit : Nat) :
    (drainFrom (fun cursor => Run.call (scope.list ⟨levels, cursor, size⟩)) size limit cursor
        session).1 =
      if pages.length < limit then .ok rows else .aborted := by
  induction paged generalizing cursor session limit with
  | nil =>
      obtain ⟨after, fetched, -⟩ := holds.call_list reaches there chosen positive cursor
      cases limit with
      | zero => rfl
      | succ limit =>
          rw [lies, List.take_nil] at fetched
          exact (drainFrom_isEmpty fetched rfl limit).trans (if_pos (Nat.succ_pos limit)).symm
  | @cons rows pages nonempty rest ih =>
      obtain ⟨after, fetched, reaches'⟩ := holds.call_list reaches there chosen positive cursor
      have some := (Paged.cons nonempty rest).page_ne_nil positive _ List.mem_cons_self
      have next := holds.ahead_drop lies some
      cases limit with
      | zero => rfl
      | succ limit =>
          rw [lies] at fetched
          rw [drainFrom_page fetched some (List.length_take_le size rows), ih _ next reaches',
            List.length_cons]
          by_cases enough : pages.length < limit
          · rw [if_pos enough, if_pos (Nat.succ_lt_succ enough), Outcome.bind,
              List.take_append_drop]
          · rw [if_neg enough, if_neg (mt Nat.lt_of_succ_lt_succ enough), Outcome.bind]

theorem drain_eq (holds : kind.Holds store contents) (there : scope.missing? contents = none)
    (chosen : levels ≠ []) (positive : 0 < size)
    (paged : Paged size (kind.ahead scope levels contents cursor) pages)
    (reaches : session.Reaches store)
    (begins : Cursor.beginning? session.clock cursor.sortField = some cursor) :
    (scope.drain levels cursor.sortField size session).1 =
      if pages.length < maxPages then .ok (kind.ahead scope levels contents cursor)
      else .aborted := by
  rw [← holds.drainFrom_eq there chosen positive paged cursor rfl reaches maxPages]
  cases scope <;>
    simp only [Scope.drain, drainPermissions, drainDocuments, bind, Run.bind, Run.beginning,
      begins, Scope.list]

end StoreKind.Holds

/-! ## The beginning -/

/-- What the clock has passed is admitted from the beginning, but for the greatest identifier
at the very time. -/
theorem Scope.admits_or_max {clock : Clock} {sortField : SortField} {start : Cursor}
    (begins : Cursor.beginning? clock sortField = some start) {row : α}
    (past : ∀ now, clock.now? = some now →
      (scope.orderKey sortField row).time.nanos ≤ now.nanos) :
    start.admits (scope.orderKey sortField row) = true ∨
      scope.rowId row = .max ∧ (scope.orderKey sortField row).time = start.lastSeenTime := by
  obtain ⟨now, read, rfl⟩ := Option.map_eq_some_iff.1 begins
  have bound := past now read
  rw [Cursor.admits, OrderKey.before_iff, Timestamp.before_iff, scope.id_orderKey]
  by_cases same : (scope.orderKey sortField row).time = now
  · by_cases greatest : scope.rowId row = .max
    · exact .inr ⟨greatest, same⟩
    · exact .inl (.inr ⟨same, Uuid.before_max greatest⟩)
  · have distinct : (scope.orderKey sortField row).time.nanos ≠ now.nanos := fun equal =>
      same (Timestamp.eq_of_nanos equal)
    exact .inl (.inl (by simp only [Cursor.key]; omega))

private theorem Contents.Evolves.read_of_listed {history : List Asked}
    (evolves : MemoryStore.empty.contents.Evolves (history.map Asked.moment) contents) {row : α}
    (listed : row ∈ scope.listed levels contents) (sortField : SortField) :
    ∃ asked ∈ history, asked.moment.clock.now? = some (scope.orderKey sortField row).time := by
  have stamped := Scope.stamped_of_mem (Scope.mem_rows_of_listed listed) sortField
  rcases evolves.hasTime stamped.hasTime with stored | ⟨moment, member, read⟩
  · exact absurd stored (MemoryStore.not_hasTime_empty _)
  · obtain ⟨asked, among, rfl⟩ := List.mem_map.1 member
    exact ⟨asked, among, read⟩

/-- What a listing leaves out from its beginning is what the clock has not passed. -/
private theorem StoreKind.max_of_not_ahead {history : List Asked}
    (evolves : MemoryStore.empty.contents.Evolves (history.map Asked.moment) contents)
    {clock : Clock} (begins : Cursor.beginning? clock cursor.sortField = some cursor)
    (whole : cursor.lastSeenTime.isWhole = true)
    (late : ∀ asked ∈ history, clock.isReached asked.moment.clock) {row : α}
    (listed : row ∈ scope.listed levels contents)
    (out : row ∉ kind.ahead scope levels contents cursor) :
    scope.rowId row = .max ∧
      (scope.orderKey cursor.sortField row).time = cursor.lastSeenTime := by
  refine (Scope.admits_or_max begins ?_).resolve_left ?_
  · intro now read
    obtain ⟨asked, among, stamped⟩ := evolves.read_of_listed listed cursor.sortField
    exact (late asked among).now?_le stamped read
  · intro admitted
    refine out (mem_ahead.2 ⟨listed, ?_⟩)
    rwa [seen_of_whole whole]

/-- Where random identifiers have been drawn, no document has the greatest one. -/
private theorem Contents.Evolves.rowId_ne_max {history : List Asked}
    (evolves : MemoryStore.empty.contents.Evolves (history.map Asked.moment) contents)
    (random : ∀ asked ∈ history, ∃ id : Uuid, asked.moment.drawn = id.asRandom)
    (minted : scope.isMinted = true) {row : α} (listed : row ∈ scope.listed levels contents) :
    scope.rowId row ≠ .max := by
  cases scope with
  | document id => cases minted
  | principal id =>
      obtain ⟨document, member, named, -⟩ :=
        Scope.stamped_of_mem (Scope.mem_rows_of_listed listed) .createdAt
      rcases evolves.minted member with ⟨old, stored, -⟩ | ⟨moment, member, drawn⟩
      · exact absurd (.inl ⟨old, stored, .createdAt, rfl⟩) (MemoryStore.not_hasTime_empty _)
      · obtain ⟨asked, among, rfl⟩ := List.mem_map.1 member
        obtain ⟨bits, marked⟩ := random asked among
        rw [← named, drawn, marked]
        exact bits.asRandom_ne_max

/-- Whatever a new store of either kind has been asked, so long as its lock is not poisoned,
following a listing from a cursor in whole microseconds gives all rows that the cursor admits,
newest first, on as few pages as can be and then on an empty one. Draining the listing from
its beginning gives the same rows, or breaks off if they fill a thousand pages. When no
operation was asked later than that, it leaves out no row but of the greatest identifier at
the very time of the beginning, and none of identifiers that were drawn at random. If the lock
has been poisoned, every page and every draining says so. -/
theorem draining_complete {store : kind.State} (new : InspectedStore.isNew store)
    (history : List Asked)
    (held : InspectedStore.contents (Store.after store history) = .ok contents)
    (there : scope.missing? contents = none) (chosen : levels ≠ []) (positive : 0 < size)
    (whole : cursor.lastSeenTime.isWhole = true) :
    let store := Store.after store history
    (¬ kind.Broken store →
      ∃ rows pages, scope.Gives levels contents cursor rows ∧ OnPages size rows pages ∧
        (∀ moments : List Moment, moments.length = pages.length + 1 →
          ∃ served, traverse scope store cursor (moments.map (Stretch.alone levels size)) =
              .ok served ∧
            served.map (fun served => served.page.items) = pages ++ [[]]) ∧
        ∀ session : Session kind.State, session.Reaches store →
          Cursor.beginning? session.clock cursor.sortField = some cursor →
            let drained := (scope.drain levels cursor.sortField size session).1
            (rows.length ⌈/⌉ size ≤ 999 → drained = .ok rows) ∧
              (1000 ≤ rows.length ⌈/⌉ size → drained = .aborted) ∧
              ((∀ asked ∈ history, session.clock.isReached asked.moment.clock) →
                (∀ row ∈ scope.listed levels contents, row ∉ rows →
                  scope.rowId row = .max ∧
                    (scope.orderKey cursor.sortField row).time = cursor.lastSeenTime) ∧
                (scope.isMinted = true →
                  (∀ asked ∈ history, ∃ id : Uuid, asked.moment.drawn = id.asRandom) →
                    ∀ row ∈ scope.listed levels contents, row ∈ rows))) ∧
      (kind.Broken store →
        let poisoned := StoreError.repository (scope.list ⟨levels, cursor, size⟩).name .poisoned
        (∀ moment : Moment,
          Store.step store moment (scope.list ⟨levels, cursor, size⟩) =
            (.error poisoned, store)) ∧
          ∀ session : Session kind.State, session.Reaches store →
            Cursor.beginning? session.clock cursor.sortField = some cursor →
              ∃ after, scope.drain levels cursor.sortField size session =
                  (.error poisoned, after) ∧
                after.store = store) := by
  intro store'
  refine ⟨?_, ?_⟩
  · intro works
    obtain ⟨holds, evolves⟩ := (StoreKind.holds_new new).after_of_works works held
    obtain ⟨pages, paged⟩ := Paged.exists_pages positive
      (kind.ahead scope levels contents cursor)
    refine ⟨_, pages, holds.gives_ahead whole, paged.onPages positive, ?_, ?_⟩
    · intro moments enough
      exact holds.traverse_alone there chosen positive paged cursor rfl enough
    · intro session reaches begins drained
      have drains : drained = _ := holds.drain_eq there chosen positive paged reaches begins
      rw [paged.count_eq positive] at drains
      refine ⟨?_, ?_, ?_⟩
      · intro few
        exact drains.trans (if_pos (Nat.lt_succ_of_le few))
      · intro many
        exact drains.trans (if_neg (Nat.not_lt.2 many))
      · intro late
        refine ⟨?_, ?_⟩
        · intro row listed out
          exact StoreKind.max_of_not_ahead evolves begins whole late listed out
        · intro minted random row listed
          by_contra out
          have greatest := StoreKind.max_of_not_ahead evolves begins whole late listed out
          exact evolves.rowId_ne_max random minted listed greatest.1
  · intro broken poisoned
    refine ⟨fun moment => broken.step_list chosen positive moment, ?_⟩
    intro session reaches begins
    exact broken.drain_eq reaches chosen positive begins

/-- Three documents of one user, made at one time under random identifiers. -/
def threeDocuments : List Asked := [1, 2, 3].map fun number =>
  ⟨DocumentId, { Moment.ofNumbers 1 0 with drawn := (Uuid.ofNat number).asRandom },
    .createDocument ⟨.ofNat 7⟩ {}⟩

/-- Drained at the very time at which they were made, they are all given, on two pages. -/
theorem draining_at_once :
    let store := Store.after MemoryStore.empty threeDocuments
    let scope := Scope.principal ⟨.ofNat 7⟩
    let start : Cursor := ⟨.createdAt, ⟨1, 0, by decide, by decide⟩, .max⟩
    let session : Session MemoryStore := ⟨store, ⟨1, 0⟩, 0, {}, none, 0, []⟩
    ∃ rows pages, (scope.drain [.owner] .createdAt 2 session).1 = .ok rows ∧
      scope.Gives [.owner] store.contents start rows ∧ rows.length = 3 ∧
      OnPages 2 rows pages ∧ pages.length = 2 ∧
      ∀ row ∈ scope.listed [.owner] store.contents, row ∈ rows := by
  intro store scope start session
  obtain ⟨drained, -⟩ := @draining_complete _ .memory store.contents scope [.owner] 2 start
    MemoryStore.empty rfl threeDocuments rfl rfl (by decide) (by decide) (by decide)
  obtain ⟨rows, pages, gives, onPages, -, drains⟩ := drained (by decide : ¬ store.poisoned = true)
  obtain ⟨few, -, complete⟩ := drains session ⟨rfl, rfl⟩ (by decide)
  have count : rows.length = 3 := gives.perm.length_eq.trans (by decide)
  have pageCount : rows.length ⌈/⌉ 2 = 2 := by
    rw [count]
    rfl
  refine ⟨rows, pages, few (by omega), gives, count, onPages, onPages.count_eq.trans pageCount, ?_⟩
  refine (complete (by decide)).2 rfl ?_
  intro asked among
  obtain ⟨number, -, rfl⟩ := List.mem_map.1 among
  exact ⟨_, rfl⟩

/-- Once the lock has been poisoned, the document that is there is not drained at all. -/
theorem nothing_drained_behind_poisoned_lock :
    let store := Store.after MemoryStore.empty [
      ⟨DocumentId, .ofNumbers 1000 1, .createDocument ⟨.ofNat 7⟩ {}⟩,
      ⟨DocumentId, .ofNumbers (-1) 2, .createDocument ⟨.ofNat 7⟩ {}⟩]
    let scope := Scope.principal ⟨.ofNat 7⟩
    let start : Cursor := ⟨.createdAt, ⟨3000, 0, by decide, by decide⟩, .max⟩
    let session : Session MemoryStore := ⟨store, ⟨3000, 0⟩, 0, {}, none, 0, []⟩
    let drained := (scope.drain [.owner] .createdAt 1 session).1
    scope.missing? store.contents = none ∧ Cursor.beginning? session.clock .createdAt = some start ∧
      ((scope.listed [.owner] store.contents).filter fun row =>
        start.admits (scope.orderKey .createdAt row)).length = 1 ∧
      drained = .error (.repository "list documents by principal" .poisoned) := by
  decide +kernel

end DocAccess
