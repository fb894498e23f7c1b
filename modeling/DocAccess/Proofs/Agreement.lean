import DocAccess.Proofs.Tables.Simulation

/-!
# One store or the other

Callers need not know which kind of store they ask, so long as the clock can be read. The
two exceptions are found where one store looks for a document first and the other for a
guest, and where a cursor is finer than what is stored.
-/

set_option autoImplicit false

namespace DocAccess

variable {α : Type}

/-- The items of a page without the position after it. -/
def Outcome.items (outcome : Outcome (Page α)) : Outcome (List α) :=
  outcome.bind fun page => .ok page.items

namespace TableStore.Represents

variable {store : TableStore} {memory : MemoryStore}

/-- The items of a listing are those from its cursor rounded down. -/
private theorem items_list (represents : store.Represents memory) (moment : Moment)
    (scope : Scope α) (listing : Listing) :
    (memory.step moment
        (scope.list { listing with cursor := listing.cursor.truncate })).1.items.Agrees
      (store.step moment (scope.list listing)).1.items := by
  rw [represents.step_list, MemoryStore.step_list represents.intact represents.live]
  simp only [Scope.answer]
  have same : (Listing.mk listing.levels listing.cursor.truncate listing.pageSize).validate =
      listing.validate := rfl
  rw [same]
  cases listing.validate with
  | error failure => exact rfl
  | ok checked =>
      cases scope.missing? memory.contents with
      | some failure => exact rfl
      | none => exact rfl

end TableStore.Represents

/-- A new store in tables and one in memory that are asked the same, each operation at one
moment for both, hold the same rows at all times. They give equal values or fail in the same
way, except that a guest of a taken identifier on a missing document is refused for either
reason, and that the tables see the time of a cursor rounded down. -/
theorem stores_agree {clock : Clock} {tables : TableStore}
    (opened : TableStore.open clock .empty = (.ok (), tables)) (history : List Asked)
    (readable : ∀ asked ∈ history, asked.moment.isReadable = true) (moment : Moment)
    (timely : moment.isReadable = true) (operation : Operation α) :
    let memory := Store.after MemoryStore.empty history
    let tables := Store.after tables history
    tables.contents = .ok memory.contents ∧
      (operation.isClash moment memory.contents = false → operation.hasWholeCursor = true →
        (memory.step moment operation).1.Agrees (tables.step moment operation).1) ∧
      (operation.isClash moment memory.contents = true →
        (memory.step moment operation).1.errorKind? = some .notFound ∧
          (tables.step moment operation).1.errorKind? = some .uniqueConflict) ∧
      ∀ {β : Type} (scope : Scope β) (listing : Listing),
        (memory.step moment
            (scope.list { listing with cursor := listing.cursor.truncate })).1.items.Agrees
          (tables.step moment (scope.list listing)).1.items := by
  intro memory tables
  have represents : tables.Represents memory := (TableStore.represents_open opened).after readable
  refine ⟨represents.contents_eq, (represents.step operation fun _ => timely).2,
    represents.clash timely, ?_⟩
  intro β scope listing
  exact represents.items_list moment scope listing

/-- After a short history, a second guest of the first one's identifier on a document that is
not there. -/
theorem stores_disagree_on_guest :
    let memory := Store.after MemoryStore.empty shortHistory
    let tables := Store.after (⟨(TableStore.newTables default).database, false⟩ : TableStore)
      shortHistory
    let moment := Moment.ofNumbers 4 2
    let operation : Operation GuestId := .createGuest ⟨.ofNat 7⟩ ⟨.ofNat 3⟩ .viewer
    TableStore.open ⟨0, 0⟩ .empty =
        (.ok (), ⟨(TableStore.newTables default).database, false⟩) ∧
      tables.contents = .ok memory.contents ∧
      (memory.step moment operation).1.errorKind? = some .notFound ∧
      (tables.step moment operation).1.errorKind? = some .uniqueConflict := by
  have opened : TableStore.open ⟨0, 0⟩ .empty =
      (.ok (), ⟨(TableStore.newTables default).database, false⟩) :=
    TableStore.open_empty rfl
  obtain ⟨same, -, clash, -⟩ := stores_agree opened shortHistory (by decide)
    (.ofNumbers 4 2) (by decide) (.createGuest ⟨.ofNat 7⟩ ⟨.ofNat 3⟩ .viewer)
  exact ⟨opened, same, clash (by decide)⟩

end DocAccess
