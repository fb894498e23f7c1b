import DocAccess.Proofs.Draining
import DocAccess.Proofs.Failure

/-!
# One page

What a listing answers, said without the way in which either kind of store finds it: the
rows that are ahead of the cursor in descending order, cut off after the size of a page, and
the position of the last of them.
-/

set_option autoImplicit false

namespace DocAccess

variable {α : Type}

namespace Scope

/-- The page of a listing whose cursor is taken for the given one in comparisons. -/
structure Exact (scope : Scope α) (contents : Contents) (listing : Listing) (seen : Cursor)
    (page : Page α) : Prop where
  first : ∃ rows, scope.Gives listing.levels contents seen rows ∧
    page.items = rows.take listing.pageSize ∧
    page.items.length = min listing.pageSize rows.length
  resumes (last : α) : page.items.getLast? = some last →
    page.next = ⟨listing.cursor.sortField, (scope.orderKey listing.cursor.sortField last).time,
      (scope.orderKey listing.cursor.sortField last).id⟩
  stays : page.items = [] → page.next = listing.cursor

private theorem next_of_getLast? {scope : Scope α} {cursor : Cursor} {items : List α} {last : α}
    (ends : items.getLast? = some last) :
    scope.next cursor items = ⟨cursor.sortField, (scope.orderKey cursor.sortField last).time,
      (scope.orderKey cursor.sortField last).id⟩ := by
  rw [next, ends]

end Scope

namespace StoreKind

variable {kind : StoreKind} {store : kind.State} {contents : Contents} {scope : Scope α}
  {levels : List PermissionLevel} {cursor : Cursor} {listing : Listing}

theorem Holds.exact (holds : kind.Holds store contents) :
    scope.Exact contents listing (kind.seen listing.cursor)
      ⟨(kind.ahead scope listing.levels contents listing.cursor).take listing.pageSize,
        scope.next listing.cursor
          ((kind.ahead scope listing.levels contents listing.cursor).take listing.pageSize)⟩ := by
  constructor
  · exact ⟨_, gives_seen holds.consistent, rfl, List.length_take⟩
  · intro last ends
    exact Scope.next_of_getLast? ends
  · intro empty
    apply Eq.trans (congrArg (scope.next listing.cursor) empty)
    exact scope.next_nil listing.cursor

end StoreKind

/-- Whatever a new store of either kind has been asked, a listing with a level and room for a
row answers the first rows below its cursor, newest first, and the position of the last of them,
and changes nothing. If the lock has been poisoned it says so. -/
theorem page_exact {kind : StoreKind} {store : kind.State} (new : InspectedStore.isNew store)
    (history : List Asked) {contents : Contents}
    (held : InspectedStore.contents (Store.after store history) = .ok contents) {scope : Scope α}
    (there : scope.missing? contents = none) {listing : Listing} (chosen : listing.levels ≠ [])
    (positive : 0 < listing.pageSize) (moment : Moment) :
    let store := Store.after store history
    (¬ kind.Broken store → ∃ page,
        Store.step store moment (scope.list listing) = (.ok page, store) ∧
          scope.Exact contents listing (kind.seen listing.cursor) page) ∧
      (kind.Broken store → Store.step store moment (scope.list listing) =
        (.error (.repository (scope.list listing).name .poisoned), store)) := by
  intro store'
  constructor
  · intro works
    obtain ⟨holds, -⟩ := (StoreKind.holds_new new).after_of_works works held
    exact ⟨_, holds.list_eq there chosen positive moment listing.cursor, holds.exact⟩
  · intro broken
    exact broken.step_list chosen positive moment

/-- Half a microsecond after a guest was minted the store in memory is asked for a row that is
older, in an odd list of levels, and gives the guest. -/
theorem page_within_microsecond :
    let store := Store.after MemoryStore.empty shortHistory
    let scope := Scope.document ⟨.ofNat 1⟩
    let listing : Listing := ⟨[.owner, .viewer, .owner],
      ⟨.lastModifiedAt, ⟨2, 500, by decide, by decide⟩, .ofNat 0⟩, 1⟩
    ∃ page, store.step (.ofNumbers 4 4) (scope.list listing) = (.ok page, store) ∧
      scope.Exact store.contents listing listing.cursor page ∧
        page.items.map (·.recipientId) = [⟨.ofNat 2⟩] := by
  intro store scope listing
  obtain ⟨answered, -⟩ := @page_exact _ .memory MemoryStore.empty rfl shortHistory store.contents
    rfl scope (by decide +kernel) listing (by decide) (by decide) (.ofNumbers 4 4)
  obtain ⟨page, listed, exact⟩ := answered (by decide : ¬ store.poisoned = true)
  obtain ⟨rows, gives, items, -⟩ := exact.first
  have known : scope.Gives listing.levels store.contents listing.cursor shortRows.tail := by
    decide +kernel
  refine ⟨page, listed, exact, ?_⟩
  rw [items, gives.unique known]
  rfl

/-- No page is given of a document that is there once the lock has been poisoned. -/
theorem no_page_behind_poisoned_lock :
    let store := Store.after MemoryStore.empty [
      ⟨DocumentId, .ofNumbers 1000 1, .createDocument ⟨.ofNat 7⟩ {}⟩,
      ⟨DocumentId, .ofNumbers (-1) 2, .createDocument ⟨.ofNat 7⟩ {}⟩]
    let scope := Scope.document ⟨.ofNat 1⟩
    let listing : Listing := ⟨[.owner], ⟨.createdAt, ⟨2000, 0, by decide, by decide⟩, .max⟩, 1⟩
    scope.missing? store.contents = none ∧
      ((scope.listed [.owner] store.contents).filter fun row =>
        listing.cursor.admits (scope.orderKey .createdAt row)).length = 1 ∧
      ∀ page, (store.step (.ofNumbers 3000 3) (scope.list listing)).1 ≠ .ok page := by
  intro store scope listing
  refine ⟨by decide +kernel, by decide +kernel, fun page => ?_⟩
  have poisoned : (store.step (.ofNumbers 3000 3) (scope.list listing)).1 =
      .error (.repository "list permissions on document" .poisoned) := by decide +kernel
  rw [poisoned]
  intro given
  cases given

end DocAccess
