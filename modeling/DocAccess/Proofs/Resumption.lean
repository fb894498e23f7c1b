import DocAccess.Proofs.Cursor.Tokens
import DocAccess.Proofs.Draining

/-!
# Going on from a token

A client of the service goes through a listing page by page. Between two pages it keeps the
cursor that it was given, or only its token, which loses what the time has below a microsecond.
A cursor after some row has nothing there to lose; one that an empty page has handed back may
have, and then nothing lies ahead of it either way.
-/

set_option autoImplicit false

namespace DocAccess

variable {σ α : Type}

/-! ## Clients -/

/-- What a client keeps of the position after a page. -/
inductive Bookmark where
  | cursor
  | token
  deriving DecidableEq

def Bookmark.reread : Bookmark → Cursor → Except StoreError (Option Cursor)
  | .cursor, next => .ok (some next)
  | .token, next => Service.decodeCursor (some next.toToken)

/-- A page that a client asks for, but for its position. -/
structure Turn where
  moment : Moment
  levels : List PermissionLevel
  pageSize : Option Nat

/-- What a client asks the service for a page. -/
def Scope.request : Scope α → ListingRequest → Request (Page α)
  | .document id, listed => .listPermissions id listed
  | .principal id, listed => .listDocuments id listed

/-- The items of the pages that a client is given one after the other. -/
def browse [Store σ] (config : ServiceConfig) (scope : Scope α) (bookmark : Bookmark) :
    σ → Option Cursor → List Turn → Outcome (List (List α))
  | _, _, [] => .ok []
  | store, position, turn :: later =>
      let (outcome, after) := Service.step config store turn.moment
        (scope.request ⟨turn.levels, position, turn.pageSize⟩)
      outcome.bind fun page =>
        (Outcome.ofExcept (bookmark.reread page.next)).bind fun position =>
          (browse config scope bookmark after position later).bind fun pages =>
            .ok (page.items :: pages)

theorem browse_cons [Store σ] {config : ServiceConfig} {scope : Scope α} {bookmark : Bookmark}
    {store after : σ} {position : Option Cursor} {turn : Turn} {later : List Turn}
    {outcome : Outcome (Page α)}
    (served : Service.step config store turn.moment
      (scope.request ⟨turn.levels, position, turn.pageSize⟩) = (outcome, after)) :
    browse config scope bookmark store position (turn :: later) =
      outcome.bind fun page =>
        (Outcome.ofExcept (bookmark.reread page.next)).bind fun position =>
          (browse config scope bookmark after position later).bind fun pages =>
            .ok (page.items :: pages) := by
  rw [browse, served]

/-- The levels of a listing for which a client has asked with the given ones. -/
def Service.filled (levels : List PermissionLevel) : List PermissionLevel :=
  if levels.isEmpty then PermissionLevel.all else levels

private theorem Service.filled_congr {levels other : List PermissionLevel}
    (same : levels ⊆ other ∧ other ⊆ levels) :
    filled levels ⊆ filled other ∧ filled other ⊆ filled levels := by
  cases levels with
  | nil =>
      obtain rfl := List.subset_nil.1 same.2
      exact ⟨fun _ member => member, fun _ member => member⟩
  | cons level levels =>
      cases other with
      | nil => exact absurd (same.1 List.mem_cons_self) List.not_mem_nil
      | cons level' other => exact same

private theorem Service.levels_of_complete {config : ServiceConfig} {clock : Clock}
    {listed : ListingRequest} {listing : Listing}
    (completed : complete config clock listed = .ok listing) :
    listing.levels = filled listed.levels := by
  unfold complete at completed
  cases position : listed.cursor with
  | some cursor =>
      rw [position] at completed
      cases completed
      rfl
  | none =>
      rw [position] at completed
      cases begins : Cursor.beginning? clock .createdAt with
      | some cursor =>
          rw [begins] at completed
          cases completed
          rfl
      | none =>
          rw [begins] at completed
          cases completed

theorem decodeCursor_toToken (cursor : Cursor) :
    Service.decodeCursor (some cursor.toToken) = .ok (some cursor.truncate) := by
  rw [decodeCursor_some cursor.toToken_ne_empty, Cursor.toToken_exact.read_write]

private theorem Cursor.truncate_eq_self {cursor : Cursor}
    (whole : cursor.lastSeenTime.isWhole = true) : cursor.truncate = cursor := by
  rw [truncate, (Timestamp.truncate_eq_self_iff _).2 whole]

private theorem Cursor.admits_of_truncate {cursor : Cursor} {key : OrderKey}
    (admitted : cursor.truncate.admits key = true) : cursor.admits key = true := by
  have below : cursor.lastSeenTime.truncate.nanos ≤ cursor.lastSeenTime.nanos := by
    rw [Timestamp.nanos_truncate]
    omega
  -- If something is lost, the rounded key comes after the exact one, whatever the identifiers.
  by_cases exact : cursor.lastSeenTime.truncate.nanos = cursor.lastSeenTime.nanos
  · rw [truncate, Timestamp.eq_of_nanos exact] at admitted
    exact admitted
  · have sinks : cursor.truncate.key.before cursor.key = true := by
      rw [OrderKey.before_iff, Timestamp.before_iff]
      exact .inl (lt_of_le_of_ne below exact)
    exact OrderKey.before_trans admitted sinks

theorem Scope.resolve_request (scope : Scope α) (config : ServiceConfig) (clock : Clock)
    (listed : ListingRequest) : Service.resolve config clock (scope.request listed) =
      (Service.complete config clock listed).bind fun listing => .ok (scope.list listing) := by
  cases scope <;> rfl

private theorem Scope.exists_listed [Store σ] {scope : Scope α} {config : ServiceConfig} {store : σ}
    {moment : Moment} {listed : ListingRequest} {page : Page α}
    (answered : (Service.step config store moment (scope.request listed)).1 = .ok page) :
    ∃ listing, (Store.step store moment (scope.list listing)).1 = .ok page := by
  rw [Service.step, scope.resolve_request] at answered
  cases completed : Service.complete config moment.clock listed with
  | ok listing =>
      rw [completed] at answered
      exact ⟨listing, answered⟩
  | error failure =>
      rw [completed] at answered
      cases answered
  | aborted =>
      rw [completed] at answered
      cases answered

namespace StoreKind

variable {kind : StoreKind} {store : kind.State} {contents : Contents} {scope : Scope α}
  {levels : List PermissionLevel} {cursor : Cursor} {listing : Listing}

theorem ahead_truncate_eq_nil (ended : kind.ahead scope levels contents cursor = []) :
    kind.ahead scope levels contents cursor.truncate = [] := by
  apply List.eq_nil_iff_forall_not_mem.2
  intro row member
  obtain ⟨listed, admitted⟩ := mem_ahead.1 member
  have ahead : row ∈ kind.ahead scope levels contents cursor := by
    apply mem_ahead.2 ⟨listed, ?_⟩
    cases kind with
    | memory => exact Cursor.admits_of_truncate admitted
    | tables => exact admitted
  rw [ended] at ahead
  exact List.not_mem_nil ahead

private theorem isWhole_next (whole : contents.Whole) {items : List α} (nonempty : items ≠ [])
    (listed : ∀ row ∈ items, row ∈ scope.listed levels contents) :
    (scope.next cursor items).lastSeenTime.isWhole = true := by
  cases ends : items.getLast? with
  | none => exact absurd (List.getLast?_eq_none_iff.1 ends) nonempty
  | some last =>
      have member : last ∈ items := List.mem_of_getLast? ends
      have stamped := Scope.stamped_of_mem (Scope.mem_rows_of_listed (listed last member))
        cursor.sortField
      rw [Scope.next, ends]
      exact whole _ stamped.hasTime

/-- The answer to a listing says where it ends, and nothing lies ahead of an empty page. -/
theorem Holds.ends_of_listed (holds : kind.Holds store contents) {moment : Moment} {page : Page α}
    (listed : (Store.step store moment (scope.list listing)).1 = .ok page) :
    page.items ≠ [] ∧ page.next.truncate = page.next ∨
      page.items = [] ∧ kind.ahead scope listing.levels contents page.next = [] := by
  obtain ⟨levels, cursor, size⟩ := listing
  rw [holds.step_list] at listed
  obtain ⟨-, positive, -, rfl⟩ := Scope.answer_ok_iff.1 listed
  simp only [page_eq]
  by_cases empty : (kind.ahead scope levels contents cursor).take size = []
  · refine .inr ⟨empty, ?_⟩
    rw [empty]
    rcases List.take_eq_nil_iff.1 empty with zero | none
    · exact absurd zero (Nat.pos_iff_ne_zero.1 positive)
    · exact none
  · have listed (row : α) (member : row ∈ (kind.ahead scope levels contents cursor).take size) :
        row ∈ scope.listed levels contents :=
      (mem_ahead.1 (List.mem_of_mem_take member)).1
    exact .inl ⟨empty, Cursor.truncate_eq_self (isWhole_next holds.whole empty listed)⟩

/-! ## Two clients -/

/-- Two positions from which the same pages follow: one position, or two at the end. -/
inductive SamePlace (kind : StoreKind) (scope : Scope α) (levels : List PermissionLevel)
    (contents : Contents) : Option Cursor → Option Cursor → Prop where
  | same (position : Option Cursor) : SamePlace kind scope levels contents position position
  | ended {first second : Cursor} (past : kind.ahead scope levels contents first = [])
      (past' : kind.ahead scope levels contents second = []) :
      SamePlace kind scope levels contents (some first) (some second)

private theorem Holds.serve_request (holds : kind.Holds store contents) (config : ServiceConfig)
    (moment : Moment) (listed : ListingRequest) :
    Service.step config store moment (scope.request listed) =
      ((Service.complete config moment.clock listed).bind fun listing =>
        scope.answer contents listing (kind.seen listing.cursor), store) := by
  rw [Service.step, scope.resolve_request]
  cases Service.complete config moment.clock listed with
  | ok listing => exact holds.step_list scope listing moment
  | error failure => rfl
  | aborted => rfl

private theorem answer_past {first second : Cursor}
    (past : kind.ahead scope levels contents first = [])
    (past' : kind.ahead scope levels contents second = []) (size : Nat) :
    (scope.answer contents ⟨levels, first, size⟩ (kind.seen first) = .ok ⟨[], first⟩ ∧
        scope.answer contents ⟨levels, second, size⟩ (kind.seen second) = .ok ⟨[], second⟩) ∨
      ∃ failure, scope.answer contents ⟨levels, first, size⟩ (kind.seen first) = .error failure ∧
        scope.answer contents ⟨levels, second, size⟩ (kind.seen second) = .error failure := by
  have arguments : Listing.validate ⟨levels, second, size⟩ =
      Listing.validate ⟨levels, first, size⟩ := rfl
  simp only [Scope.answer, arguments, page_eq, past, past', List.take_nil, Scope.next_nil]
  cases Listing.validate ⟨levels, first, size⟩ with
  | error failure => exact .inr ⟨failure, rfl, rfl⟩
  | ok checked =>
      cases scope.missing? contents with
      | some failure => exact .inr ⟨failure, rfl, rfl⟩
      | none => exact .inl ⟨rfl, rfl⟩

private theorem SamePlace.congr {other : List PermissionLevel}
    (same : levels ⊆ other ∧ other ⊆ levels)
    {first second : Option Cursor} (place : SamePlace kind scope levels contents first second) :
    SamePlace kind scope other contents first second := by
  cases place with
  | same => exact .same first
  | ended past past' =>
      rw [ahead_congr same] at past past'
      exact .ended past past'

/-- After a page that both have been given, a client that keeps the token and one that keeps
the cursor are at the same place. -/
private theorem Holds.samePlace_next (holds : kind.Holds store contents) {moment : Moment}
    {page : Page α} (listed : (Store.step store moment (scope.list listing)).1 = .ok page) :
    SamePlace kind scope listing.levels contents (some page.next.truncate) (some page.next) := by
  rcases holds.ends_of_listed listed with ⟨-, whole⟩ | ⟨-, past⟩
  · rw [whole]
    exact .same _
  · exact .ended (ahead_truncate_eq_nil past) past

/-- How the service answers two requests of which both are given a page or neither. -/
inductive SamePage (kind : StoreKind) (scope : Scope α) (levels : List PermissionLevel)
    (contents : Contents) : Outcome (Page α) → Outcome (Page α) → Prop where
  | ok {first second : Page α} (items : first.items = second.items)
      (place : SamePlace kind scope levels contents (some first.next.truncate)
        (some second.next)) :
      SamePage kind scope levels contents (.ok first) (.ok second)
  | error (failure : StoreError) : SamePage kind scope levels contents (.error failure)
      (.error failure)
  | aborted : SamePage kind scope levels contents .aborted .aborted

private theorem Holds.same_page (holds : kind.Holds store contents) (config : ServiceConfig)
    (turn : Turn) {first second : Option Cursor}
    (place : SamePlace kind scope (Service.filled turn.levels) contents first second) :
    ∃ outcome outcome', SamePage kind scope (Service.filled turn.levels) contents outcome outcome' ∧
      Service.step config store turn.moment
          (scope.request ⟨turn.levels, first, turn.pageSize⟩) = (outcome, store) ∧
        Service.step config store turn.moment
          (scope.request ⟨turn.levels, second, turn.pageSize⟩) = (outcome', store) := by
  refine ⟨_, _, ?_, holds.serve_request config turn.moment _, holds.serve_request config _ _⟩
  cases place with
  | @ended first second past past' =>
      have completed (cursor : Cursor) : Service.complete config turn.moment.clock
          ⟨turn.levels, some cursor, turn.pageSize⟩ =
            .ok ⟨Service.filled turn.levels, cursor, config.pageSize turn.pageSize⟩ := rfl
      rw [completed, completed, Outcome.bind, Outcome.bind]
      rcases answer_past past past' (config.pageSize turn.pageSize) with
        ⟨empty, empty'⟩ | ⟨failure, failed, failed'⟩
      · rw [empty, empty']
        exact .ok rfl (.ended (ahead_truncate_eq_nil past) past')
      · rw [failed, failed']
        exact .error failure
  | same =>
      cases completed : Service.complete config turn.moment.clock
          ⟨turn.levels, first, turn.pageSize⟩ with
      | error failure => exact .error failure
      | aborted => exact .aborted
      | ok listing =>
          rw [Outcome.bind]
          cases answered : scope.answer contents listing (kind.seen listing.cursor) with
          | error failure => exact .error failure
          | aborted => exact .aborted
          | ok page =>
              have listed : (Store.step store turn.moment (scope.list listing)).1 = .ok page :=
                (congrArg Prod.fst (holds.step_list scope listing turn.moment)).trans answered
              have place := holds.samePlace_next listed
              rw [Service.levels_of_complete completed] at place
              exact .ok rfl place

private theorem Holds.browse_eq (holds : kind.Holds store contents) (config : ServiceConfig)
    {turns : List Turn} (fixed : ∀ turn ∈ turns, turn.levels ⊆ levels ∧ levels ⊆ turn.levels)
    {first second : Option Cursor}
    (place : SamePlace kind scope (Service.filled levels) contents first second) :
    browse config scope .token store first turns =
      browse config scope .cursor store second turns := by
  induction turns generalizing first second with
  | nil => rfl
  | cons turn later ih =>
      obtain ⟨levelled, others⟩ := List.forall_mem_cons.1 fixed
      have filled := Service.filled_congr levelled
      obtain ⟨outcome, outcome', same, served, served'⟩ :=
        holds.same_page config turn (place.congr filled.symm)
      rw [browse_cons served, browse_cons served']
      cases same with
      | error failure => simp only [Outcome.bind]
      | aborted => simp only [Outcome.bind]
      | ok items place' =>
          simp only [Outcome.bind, Bookmark.reread, decodeCursor_toToken, Outcome.ofExcept, items,
            ih others (place'.congr filled)]

private theorem Broken.browse_eq (broken : kind.Broken store) (config : ServiceConfig)
    (position : Option Cursor) (turns : List Turn) :
    browse config scope .token store position turns =
      browse config scope .cursor store position turns := by
  cases turns with
  | nil => rfl
  | cons turn later =>
      obtain ⟨outcome, after, served⟩ : ∃ outcome after, Service.step config store turn.moment
          (scope.request ⟨turn.levels, position, turn.pageSize⟩) = (outcome, after) := ⟨_, _, rfl⟩
      rw [browse_cons served, browse_cons served]
      cases outcome with
      | error failure => simp only [Outcome.bind]
      | aborted => simp only [Outcome.bind]
      | ok page =>
          obtain ⟨listing, listed⟩ := Scope.exists_listed (congrArg Prod.fst served)
          exact absurd listed (broken.list_ne_ok scope listing turn.moment page)

end StoreKind

/-- What the service answers to a client that goes on from the position after a page. -/
def Scope.resume [Store σ] (config : ServiceConfig) (scope : Scope α) (bookmark : Bookmark)
    (store : σ) (next : Cursor) (turn : Turn) : Outcome (Page α) :=
  (Outcome.ofExcept (bookmark.reread next)).bind fun position =>
    (Service.step config store turn.moment
      (scope.request ⟨turn.levels, position, turn.pageSize⟩)).1

open StoreKind in
/-- The token after a page with items is as good as the cursor at any later time. The token
after an empty page leads to an empty page while nothing changes. So the clients of a store that
rests, one with the cursors and one with their tokens, see the same items in the same pages. -/
theorem resuming_by_token {kind : StoreKind} {store : kind.State}
    (new : InspectedStore.isNew store) (history : List Asked) (scope : Scope α) :
    let store := Store.after store history
    (∀ (moment : Moment) (listing : Listing) (page : Page α),
      (Store.step store moment (scope.list listing)).1 = .ok page →
        (page.items ≠ [] →
          Service.decodeCursor (some page.next.toToken) = .ok (some page.next) ∧
            ∀ (later : List Asked) (config : ServiceConfig) (turn : Turn),
              scope.resume config .token (Store.after store later) page.next turn =
                scope.resume config .cursor (Store.after store later) page.next turn) ∧
        (page.items = [] → ∃ cursor,
          Service.decodeCursor (some page.next.toToken) = .ok (some cursor) ∧
            ∀ (moment : Moment) (levels : List PermissionLevel) (size : Nat),
              levels ⊆ listing.levels ∧ listing.levels ⊆ levels → 0 < size →
                Store.step store moment (scope.list ⟨levels, cursor, size⟩) =
                  (.ok ⟨[], cursor⟩, store))) ∧
      ∀ (config : ServiceConfig) (start : Option Cursor) (levels : List PermissionLevel)
        (turns : List Turn),
        (∀ turn ∈ turns, turn.levels ⊆ levels ∧ levels ⊆ turn.levels) →
          browse config scope .token store start turns =
            browse config scope .cursor store start turns := by
  intro store'
  rcases (holds_new new).after history with ⟨contents, holds, -⟩ | broken
  · refine ⟨fun moment listing page listed => ?_, fun config start levels turns fixed =>
      holds.browse_eq config fixed (.same start)⟩
    rcases holds.ends_of_listed listed with ⟨nonempty, whole⟩ | ⟨empty, past⟩
    · have exact := decodeCursor_toToken page.next
      rw [whole] at exact
      refine ⟨fun _ => ⟨exact, fun later config turn => ?_⟩, fun empty => absurd empty nonempty⟩
      rw [Scope.resume, Scope.resume, Bookmark.reread, Bookmark.reread, exact]
    · refine ⟨fun nonempty => absurd empty nonempty, fun _ =>
        ⟨_, decodeCursor_toToken page.next, fun moment levels size same positive => ?_⟩⟩
      rw [holds.step_list] at listed
      obtain ⟨chosen, -, there, -⟩ := Scope.answer_ok_iff.1 listed
      have chosen' : levels ≠ [] := fun none =>
        chosen (List.subset_nil.1 (none ▸ same.2))
      rw [holds.list_eq there chosen' positive, ahead_congr same, ahead_truncate_eq_nil past,
        List.take_nil, Scope.next_nil]
  · exact ⟨fun moment listing page listed =>
        absurd listed (broken.list_ne_ok scope listing moment page),
      fun config start levels turns _ => broken.browse_eq config start turns⟩

/-- Half a microsecond after the owner of a document was made, no older viewer is found, and none
from the token either. Whether a client keeps tokens makes no difference after that. The newest
page is the editor's: from its token the guest is found, also when the editor is gone. -/
theorem resuming_by_token_within_microsecond :
    let store := Store.after MemoryStore.empty shortHistory
    let scope := Scope.document ⟨.ofNat 1⟩
    let start : Cursor := ⟨.createdAt, ⟨1, 500, by decide, by decide⟩, .max⟩
    let newest : Listing :=
      ⟨[.editor, .viewer], ⟨.createdAt, ⟨4, 0, by decide, by decide⟩, .max⟩, 1⟩
    let turn : Turn := ⟨.ofNumbers 6 6, [.viewer], some 1⟩
    let later : List Asked := [⟨Unit, .ofNumbers 5 5, .deletePermission ⟨.ofNat 8⟩ ⟨.ofNat 1⟩⟩]
    store.step (.ofNumbers 4 4) (scope.list ⟨[.viewer], start, 1⟩) = (.ok ⟨[], start⟩, store) ∧
      start.truncate ≠ start ∧
      (∃ cursor, Service.decodeCursor (some start.toToken) = .ok (some cursor) ∧
        store.step (.ofNumbers 5 5) (scope.list ⟨[.viewer, .viewer], cursor, 2⟩) =
          (.ok ⟨[], cursor⟩, store)) ∧
      browse {} scope .token store (some start) [turn, turn] =
        browse {} scope .cursor store (some start) [turn, turn] ∧
      ∃ page, (store.step (.ofNumbers 4 4) (scope.list newest)).1 = .ok page ∧
        page.items.map (·.recipientId) = [⟨.ofNat 8⟩] ∧
        (scope.resume {} .token (Store.after store later) page.next turn).bind
          (fun page => .ok (page.items.map (·.recipientId))) = .ok [⟨.ofNat 2⟩] := by
  intro store scope start newest turn later
  have new : StoreKind.Holds .memory MemoryStore.empty MemoryStore.empty.contents :=
    StoreKind.holds_new rfl
  have holds : StoreKind.Holds .memory store store.contents :=
    (new.after_of_works (by decide : ¬ store.poisoned = true) rfl).1
  have listed : store.step (.ofNumbers 4 4) (scope.list ⟨[.viewer], start, 1⟩) =
      (.ok ⟨[], start⟩, store) := by
    have empty : scope.Gives [.viewer] store.contents start [] := by
      decide +kernel
    exact holds.list_of_gives (by decide) (by decide) Nat.one_pos (.ofNumbers 4 4) empty
  obtain ⟨pages, clients⟩ := @resuming_by_token _ .memory MemoryStore.empty rfl shortHistory scope
  obtain ⟨cursor, decoded, empty⟩ :=
    (pages (.ofNumbers 4 4) ⟨[.viewer], start, 1⟩ _ (congrArg Prod.fst listed)).2 rfl
  refine ⟨listed, by decide, ⟨cursor, decoded, ?_⟩, ?_, ?_⟩
  · exact empty (.ofNumbers 5 5) [.viewer, .viewer] 2 (by decide) (by decide)
  · apply clients {} (some start) [.viewer] [turn, turn]
    intro asked member
    cases List.eq_of_mem_replicate (n := 2) member
    exact ⟨fun _ held => held, fun _ held => held⟩
  · let page : Page Permission := ⟨shortRows.take 1, scope.next newest.cursor (shortRows.take 1)⟩
    have given : (store.step (.ofNumbers 4 4) (scope.list newest)).1 = .ok page := by
      have gives : scope.Gives newest.levels store.contents newest.cursor (shortRows.take 2) := by
        decide +kernel
      have answer := holds.list_of_gives (by decide) (by decide) Nat.one_pos (.ofNumbers 4 4) gives
      exact congrArg Prod.fst answer
    obtain ⟨-, resumes⟩ := (pages (.ofNumbers 4 4) newest page given).1 (by decide)
    have same : scope.resume {} .token (Store.after store later) page.next turn =
        scope.resume {} .cursor (Store.after store later) page.next turn := resumes later {} turn
    let left := Store.after store later
    have holds' : StoreKind.Holds .memory left left.contents :=
      (holds.after_of_works (by decide : ¬ left.poisoned = true) rfl).1
    have gives : scope.Gives [.viewer] left.contents page.next [shortRows[1]] := by
      decide +kernel
    have answer := holds'.list_of_gives (by decide) (by decide) Nat.one_pos turn.moment gives
    refine ⟨page, given, rfl, ?_⟩
    rw [same]
    exact congrArg (fun answer => answer.1.bind fun page => .ok (page.items.map (·.recipientId)))
      answer

end DocAccess
