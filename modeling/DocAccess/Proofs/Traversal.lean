import DocAccess.Proofs.Listing.Walk

/-!
# Traversals

A client goes through one listing page by page, each page resumed from where the last one
ended, while others ask whatever they like of the store in between.
-/

set_option autoImplicit false

namespace DocAccess

variable {σ α : Type}

/-- A part of a traversal: what others ask, and the arguments of the page after that. -/
structure Stretch where
  others : List Asked
  moment : Moment
  levels : List PermissionLevel
  pageSize : Nat

/-- The moments of all that is asked. -/
def Stretch.moments (stretch : Stretch) : List Moment :=
  stretch.others.map Asked.moment ++ [stretch.moment]

/-- A page and the store that it was asked of. -/
structure Served (σ α : Type) where
  store : σ
  page : Page α

/-- The pages of a traversal from a cursor, if all of them are given. -/
def traverse [Store σ] (scope : Scope α) :
    σ → Cursor → List Stretch → Outcome (List (Served σ α))
  | _, _, [] => .ok []
  | store, cursor, stretch :: later =>
      let store := Store.after store stretch.others
      let (outcome, after) := Store.step store stretch.moment
        (scope.list ⟨stretch.levels, cursor, stretch.pageSize⟩)
      outcome.bind fun page =>
        (traverse scope after page.next later).bind fun pages => .ok (⟨store, page⟩ :: pages)

/-- The rows that a traversal has been given. -/
def returned (pages : List (Served σ α)) : List α :=
  pages.flatMap fun served => served.page.items

/-- Whether a row of a listing stands at a position. -/
def Scope.Shows [InspectedStore σ] (scope : Scope α) (levels : List PermissionLevel)
    (sortField : SortField) (position : OrderKey) (store : σ) : Prop :=
  ∃ contents, InspectedStore.contents store = .ok contents ∧
    ∃ row ∈ scope.listed levels contents, scope.orderKey sortField row = position

theorem traverse_cons_eq_ok_iff [Store σ] {scope : Scope α} {store : σ} {cursor : Cursor}
    {stretch : Stretch} {later : List Stretch} {pages : List (Served σ α)} :
    traverse scope store cursor (stretch :: later) = .ok pages ↔
      ∃ page rest, (Store.step (Store.after store stretch.others) stretch.moment
          (scope.list ⟨stretch.levels, cursor, stretch.pageSize⟩)).1 = .ok page ∧
        traverse scope (Store.step (Store.after store stretch.others) stretch.moment
          (scope.list ⟨stretch.levels, cursor, stretch.pageSize⟩)).2 page.next later = .ok rest ∧
        pages = ⟨Store.after store stretch.others, page⟩ :: rest := by
  simp only [traverse, Outcome.bind_eq_ok_iff, Outcome.ok.injEq]
  constructor
  · intro bound
    obtain ⟨page, answered, rest, served, rfl⟩ := bound
    exact ⟨page, rest, answered, served, rfl⟩
  · intro parts
    obtain ⟨page, rest, answered, served, rfl⟩ := parts
    exact ⟨page, answered, rest, served, rfl⟩

/-- The first page of a traversal, where the rows ahead of it are known. -/
theorem StoreKind.Holds.traverse_cons {kind : StoreKind} {store : kind.State}
    {others : List Asked} {contents : Contents}
    (holds : kind.Holds (Store.after store others) contents) {scope : Scope α}
    (there : scope.missing? contents = none) {levels : List PermissionLevel}
    (chosen : levels ≠ []) {size : Nat} (positive : 0 < size) {cursor : Cursor} {items : List α}
    (page : (kind.ahead scope levels contents cursor).take size = items) {moment : Moment}
    {later : List Stretch} {served : List (Served kind.State α)}
    (onward : traverse scope (Store.after store others) (scope.next cursor items) later =
      .ok served) :
    traverse scope store cursor (⟨others, moment, levels, size⟩ :: later) =
      .ok (⟨Store.after store others, items, scope.next cursor items⟩ :: served) := by
  have listed := holds.list_eq there chosen positive moment cursor
  rw [page] at listed
  refine traverse_cons_eq_ok_iff.2 ⟨_, served, congrArg Prod.fst listed, ?_, rfl⟩
  exact (congrArg Prod.snd listed).symm ▸ onward

/-- A traversal is a walk through the rows that the store has at each page. -/
theorem StoreKind.Holds.walk {kind : StoreKind} {store : kind.State} {before : Contents}
    (holds : kind.Holds store before) {scope : Scope α} {levels : List PermissionLevel}
    {cursor : Cursor} {stretches : List Stretch}
    (fixed : ∀ stretch ∈ stretches, stretch.levels ⊆ levels ∧ levels ⊆ stretch.levels)
    {pages : List (Served kind.State α)}
    (served : traverse scope store cursor stretches = .ok pages) :
    ∃ visits : List (Visit α),
      Walk kind scope levels before cursor (stretches.flatMap Stretch.moments) visits ∧
        pages.map (fun served => (InspectedStore.contents served.store, served.page.items)) =
          visits.map fun visit => (.ok visit.contents, visit.items) := by
  induction stretches generalizing store before cursor pages with
  | nil =>
      cases served
      exact ⟨[], .done, rfl⟩
  | cons stretch stretches ih =>
      obtain ⟨page, rest, answered, onward, rfl⟩ := traverse_cons_eq_ok_iff.1 served
      rcases holds.after stretch.others with ⟨contents, holding, evolves⟩ | broken
      · rw [holding.step_list] at answered onward
        obtain ⟨-, positive, -, given⟩ := Scope.answer_ok_iff.1 answered
        rw [StoreKind.page_eq, StoreKind.ahead_congr (fixed stretch List.mem_cons_self)] at given
        have items : page.items = (kind.ahead scope levels contents cursor).take stretch.pageSize :=
          congrArg Page.items given
        have next : page.next = scope.next cursor page.items := by rw [given]
        obtain ⟨visits, walk, same⟩ := ih holding
          (fun other member => fixed other (List.mem_cons_of_mem stretch member)) onward
        rw [next] at walk
        refine ⟨⟨contents, page.items⟩ :: visits, ?_, ?_⟩
        · rw [List.flatMap_cons, Stretch.moments, List.append_assoc]
          exact .visit evolves holding.consistent holding.whole positive items walk
        · rw [List.map_cons, List.map_cons, holding.contents_eq, same]
      · exact absurd answered (broken.list_ne_ok scope _ stretch.moment page)

private theorem StoreKind.Broken.pages_eq_nil {kind : StoreKind} {store : kind.State}
    (broken : kind.Broken store) {scope : Scope α} {cursor : Cursor} {stretches : List Stretch}
    {pages : List (Served kind.State α)}
    (served : traverse scope store cursor stretches = .ok pages) : pages = [] := by
  cases stretches with
  | nil =>
      cases served
      rfl
  | cons stretch stretches =>
      obtain ⟨page, rest, answered, -, -⟩ := traverse_cons_eq_ok_iff.1 served
      have stillBroken := broken.after stretch.others
      exact absurd answered (stillBroken.list_ne_ok scope _ stretch.moment page)

/-- Whatever others ask of a store between the pages, and however long each page may be, a
traversal is given rows of the listing, which go down strictly from its start. Once it has been
given an empty page it has been given every row that stayed in its place, once. While the clock
does not go backwards it is given no identifier twice. -/
theorem traversal_strict_covers_once {kind : StoreKind} {store : kind.State}
    (new : InspectedStore.isNew store) (history : List Asked) (scope : Scope α)
    (levels : List PermissionLevel) (start : Cursor) (stretches : List Stretch)
    (fixed : ∀ stretch ∈ stretches, stretch.levels ⊆ levels ∧ levels ⊆ stretch.levels)
    {pages : List (Served kind.State α)}
    (served : traverse scope (Store.after store history) start stretches = .ok pages) :
    let key := scope.orderKey start.sortField
    (∀ served ∈ pages, ∃ contents, InspectedStore.contents served.store = .ok contents ∧
        served.page.items ⊆ scope.listed levels contents) ∧
      (Descending key (returned pages) ∧
        ∀ row ∈ returned pages, (kind.seen start).admits (key row) = true) ∧
      ((∃ served ∈ pages, served.page.isEmpty = true) →
        ∀ position, (kind.seen start).admits position = true →
          (∀ served ∈ pages, scope.Shows levels start.sortField position served.store) →
            ((returned pages).map key).count position = 1) ∧
      (Steady (history.map Asked.moment ++ stretches.flatMap Stretch.moments) →
        ((returned pages).map scope.rowId).Nodup) := by
  intro key
  rcases (StoreKind.holds_new new).after history with ⟨before, holds, evolves⟩ | broken
  · obtain ⟨visits, walk, same⟩ := holds.walk fixed served
    have items : returned pages = visits.flatMap Visit.items := by
      have taken := congrArg (List.flatMap Prod.snd) same
      rwa [List.flatMap_map, List.flatMap_map] at taken
    rw [items]
    refine ⟨?_, walk.descending, ?_, ?_⟩
    · intro served among
      obtain ⟨visit, member, seen⟩ := List.mem_map.1 (same ▸ List.mem_map_of_mem among)
      obtain ⟨contentsEq, itemsEq⟩ := Prod.mk.inj seen
      exact ⟨visit.contents, contentsEq.symm, itemsEq ▸ walk.items_subset visit member⟩
    · intro ended position admitted present
      refine List.count_eq_one_of_mem walk.descending.1.keys_nodup (List.mem_map.2 ?_)
      refine walk.covers admitted ?_ ?_
      · intro visit member
        obtain ⟨served, among, seen⟩ := List.mem_map.1 (same ▸ List.mem_map_of_mem member)
        obtain ⟨contents, read, shown⟩ := present served among
        cases read.symm.trans (congrArg Prod.fst seen)
        exact shown
      · obtain ⟨served, among, empty⟩ := ended
        obtain ⟨visit, member, seen⟩ := List.mem_map.1 (same ▸ List.mem_map_of_mem among)
        exact ⟨visit, member, (congrArg Prod.snd seen).trans (List.isEmpty_iff.1 empty)⟩
    · intro steady
      refine walk.ids_nodup (evolves.isPast ?_ steady) (List.pairwise_append.1 steady).2.1
      exact fun time stored => absurd stored (MemoryStore.not_hasTime_empty time)
  · cases broken.pages_eq_nil served
    refine ⟨fun served among => absurd among List.not_mem_nil,
      ⟨List.Pairwise.nil, fun row member => absurd member List.not_mem_nil⟩, ?_,
      fun _ => List.nodup_nil⟩
    intro ended
    obtain ⟨served, among, -⟩ := ended
    exact absurd among List.not_mem_nil

/-- Between the pages of this traversal the row it was just given moves forward, and the one
it is given next goes away afterwards. -/
def shortTraversal : List Stretch := [
  ⟨[], .ofNumbers 4 4, [.viewer, .editor, .owner], 1⟩,
  ⟨[⟨Unit, .ofNumbers 5 5, .upsertUser ⟨.ofNat 8⟩ ⟨.ofNat 1⟩ .viewer⟩],
    .ofNumbers 6 6, [.owner, .editor, .viewer], 2⟩,
  ⟨[⟨Unit, .ofNumbers 7 7, .deletePermission ⟨.ofNat 2⟩ ⟨.ofNat 1⟩⟩],
    .ofNumbers 8 8, [.viewer, .editor, .owner], 2⟩]

/-- The editor, the guest and the owner are given in turn, the owner as the one who stayed. -/
theorem traversal_past_moving_row :
    let scope := Scope.document ⟨.ofNat 1⟩
    let start : Cursor := ⟨.lastModifiedAt, ⟨4, 0, by decide, by decide⟩, .max⟩
    let owner : OrderKey := ⟨⟨1, 0, by decide, by decide⟩, .ofNat 7⟩
    ∃ pages, traverse scope (Store.after MemoryStore.empty shortHistory) start shortTraversal =
        .ok pages ∧
      (returned pages).map scope.rowId = [.ofNat 8, .ofNat 2, .ofNat 7] ∧
      Descending (scope.orderKey .lastModifiedAt) (returned pages) ∧
      ((returned pages).map (scope.orderKey .lastModifiedAt)).count owner = 1 ∧
      ((returned pages).map scope.rowId).Nodup := by
  intro scope start owner
  let all : List PermissionLevel := [.viewer, .editor, .owner]
  let store := Store.after MemoryStore.empty shortHistory
  let moved := Store.after store
    [⟨Unit, .ofNumbers 5 5, .upsertUser ⟨.ofNat 8⟩ ⟨.ofNat 1⟩ .viewer⟩]
  let deleted := Store.after moved
    [⟨Unit, .ofNumbers 7 7, .deletePermission ⟨.ofNat 2⟩ ⟨.ofNat 1⟩⟩]
  have new : StoreKind.Holds .memory MemoryStore.empty MemoryStore.empty.contents :=
    StoreKind.holds_new rfl
  have holds : StoreKind.Holds .memory (Store.after store []) store.contents :=
    (new.after_of_works (by decide : ¬ store.poisoned = true) rfl).1
  have holdsMoved : StoreKind.Holds .memory moved moved.contents :=
    (holds.after_of_works (by decide : ¬ moved.poisoned = true) rfl).1
  have holdsDeleted : StoreKind.Holds .memory deleted deleted.contents :=
    (holdsMoved.after_of_works (by decide : ¬ deleted.poisoned = true) rfl).1
  let second := scope.next start (shortRows.take 1)
  let third := scope.next second shortRows.tail
  have newest : (StoreKind.memory.ahead scope all store.contents start).take 1 =
      shortRows.take 1 := by
    rw [StoreKind.ahead_of_gives holds.consistent
      (by decide +kernel : scope.Gives all store.contents start shortRows)]
  have others :
      (StoreKind.memory.ahead scope [.owner, .editor, .viewer] moved.contents second).take 2 =
        shortRows.tail := by
    rw [StoreKind.ahead_of_gives holdsMoved.consistent
      (by decide +kernel : scope.Gives _ moved.contents second shortRows.tail)]
    rfl
  have nothing : (StoreKind.memory.ahead scope all deleted.contents third).take 2 = [] := by
    rw [StoreKind.ahead_of_gives holdsDeleted.consistent
      (by decide +kernel : scope.Gives all deleted.contents third [])]
    rfl
  let pages : List (Served MemoryStore Permission) := [⟨store, ⟨shortRows.take 1, second⟩⟩,
    ⟨moved, ⟨shortRows.tail, third⟩⟩, ⟨deleted, ⟨[], scope.next third []⟩⟩]
  have served : traverse scope store start shortTraversal = .ok pages :=
    holds.traverse_cons (by decide) (by decide) (by decide) newest
      (holdsMoved.traverse_cons (by decide) (by decide) (by decide) others
        (holdsDeleted.traverse_cons (by decide) (by decide) (by decide) nothing rfl))
  have shown : (pages.all fun served => (scope.listed all served.store.contents).any
      fun row => scope.orderKey .lastModifiedAt row = owner) = true := by
    decide +kernel
  obtain ⟨-, ⟨descends, -⟩, covers, unique⟩ := @traversal_strict_covers_once _ .memory
    MemoryStore.empty rfl shortHistory scope all start shortTraversal (by decide) _ served
  have stays : ∀ served ∈ pages, scope.Shows all .lastModifiedAt owner served.store := by
    intro served among
    obtain ⟨row, listed, same⟩ := List.any_eq_true.1 (List.all_eq_true.1 shown served among)
    exact ⟨_, rfl, row, listed, of_decide_eq_true same⟩
  have ended : ∃ served ∈ pages, served.page.isEmpty = true :=
    ⟨_, List.mem_of_getLast? rfl, rfl⟩
  exact ⟨pages, served, rfl, descends, covers ended owner (by decide) stays, unique (by decide)⟩

end DocAccess
