import DocAccess.Proofs.Testing.Checks
import DocAccess.Proofs.Testing.Pagination

/-!
# The checks raise no false alarm

Every check passes on a new store of either kind, whatever distinct identifiers are drawn and
however the clock runs inside the calendar. One thing is needed of the clock beyond that: most
checks are for a clock that moves on between calls. The check that drains documents may be made
so large that draining gives up, and only then does it break off.
-/

set_option autoImplicit false

namespace DocAccess.Testing

namespace Check

/-- How many identifiers a check draws. -/
def draws : Check → Nat
  | .creatorIsOwner => 2
  | .updateOverwritesPresentFields => 3
  | .upsertIsIdempotent => 4
  | .upsertOntoGuestConflicts => 3
  | .guestLifecycle => 5
  | .deleteCascades => 5
  | .invalidListingArguments => 3
  | .paginationIsComplete rows _ _ => rows + 1
  | .paginationMissesForward => 6
  | .levelFilterApplies => 7

/-- For how many calls a check needs the clock. -/
def calls : Check → Nat
  | .creatorIsOwner => 3
  | .updateOverwritesPresentFields => 5
  | .upsertIsIdempotent => 10
  | .upsertOntoGuestConflicts => 4
  | .guestLifecycle => 11
  | .deleteCascades => 11
  | .invalidListingArguments => 4
  | .paginationIsComplete rows _ _ => rows
  | .paginationMissesForward => 7
  | .levelFilterApplies => 12

/-- Whether a check drains its documents before draining gives up. -/
def IsSmall : Check → Prop
  | .paginationIsComplete rows size _ => 0 < size ∧ rows ⌈/⌉ size < 1000
  | _ => True

theorem passes {kind : StoreKind} {session : Session kind.State} {check : Check}
    (moving : session.Underway 1 .empty [] check.draws check.calls) (small : check.IsSmall) :
    (check.run session).1 = .ok () := by
  cases check with
  | creatorIsOwner => exact moving.creatorIsOwner.outcome_eq
  | updateOverwritesPresentFields =>
      exact (moving.updateOverwritesPresentFields (by decide)).outcome_eq
  | upsertIsIdempotent => exact moving.upsertIsIdempotent.outcome_eq
  | upsertOntoGuestConflicts => exact moving.upsertOntoGuestConflicts.outcome_eq
  | guestLifecycle => exact moving.guestLifecycle.outcome_eq
  | deleteCascades => exact moving.deleteCascades.outcome_eq
  | invalidListingArguments => exact moving.invalidListingArguments.outcome_eq
  | paginationIsComplete rows size sortField =>
      exact (moving.paginationIsComplete small.1 small.2 sortField).outcome_eq
  | paginationMissesForward => exact (moving.paginationMissesForward (by decide)).outcome_eq
  | levelFilterApplies => exact moving.levelFilterApplies.outcome_eq

private theorem isSmall_of_suite : ∀ check ∈ suite, check.IsSmall := by
  simp only [suite, List.forall_mem_cons, List.not_mem_nil, false_implies, implies_true, IsSmall]
  decide

/-- All that a store is put through passes on a new store of either kind each time, with distinct
identifiers and a clock that moves on. -/
theorem suite_passes {kind : StoreKind} {check : Check} (listed : check ∈ suite)
    (session : Session kind.State) (new : InspectedStore.isNew session.store)
    (clear : session.injected = none) (apart : (session.draws.take check.draws).Nodup)
    (keeps : session.KeepsTime check.calls) (moves : session.MovesOn check.calls) :
    (check.run session).1 = .ok () :=
  passes (.start new clear (moves.paced keeps) apart) (isSmall_of_suite check listed)

end Check

/-- On a new store of either kind, with distinct identifiers and a clock that does not go back,
the check that drains documents passes if they fill fewer than a thousand pages and breaks off
otherwise. Every other check passes if the clock moves on from each call to the next. -/
theorem checks_raise_no_alarm (kind : StoreKind) (session : Session kind.State)
    (new : InspectedStore.isNew session.store) (clear : session.injected = none) (check : Check)
    (apart : (session.draws.take check.draws).Nodup) (keeps : session.KeepsTime check.calls) :
    match check with
    | .paginationIsComplete rows size _ => 0 < size →
        (check.run session).1 = if rows ⌈/⌉ size < 1000 then .ok () else .aborted
    | _ => session.MovesOn check.calls → (check.run session).1 = .ok () := by
  cases check with
  | paginationIsComplete rows size sortField =>
      intro positive
      have still := Session.Underway.start new clear keeps.paced apart
      split
      · next few => exact (still.paginationIsComplete positive few sortField).outcome_eq
      · next many => exact still.paginationIsComplete_aborts positive (Nat.not_lt.1 many) sortField
  | _ =>
      intro moves
      exact Check.passes (.start new clear (moves.paced keeps) apart) trivial

/-- Three documents of one time, drawn from the greatest identifier to the least, are drained from
memory two by two; and a late document is missed in tables. -/
theorem tied_documents_drained :
    let tied : Session MemoryStore := {
      store := .empty
      clock := ⟨1700000000000000, 0⟩
      draws := { queue := [.ofNat 9, .ofNat 3, .ofNat 2, .ofNat 1] } }
    let moving : Session TableStore := {
      store := ⟨(TableStore.newTables default).database, false⟩
      clock := ⟨0, 0⟩
      callTick := 1 }
    ((Check.paginationIsComplete 3 2 .createdAt).run tied).1 = .ok () ∧
      (Check.paginationMissesForward.run moving).1 = .ok () := by
  intro tied moving
  have opened : TableStore.open ⟨0, 0⟩ .empty =
      (.ok (), ⟨(TableStore.newTables default).database, false⟩) :=
    TableStore.open_empty rfl
  have moves : moving.MovesOn Check.paginationMissesForward.calls := by decide
  have drained := checks_raise_no_alarm .memory tied rfl rfl (.paginationIsComplete 3 2 .createdAt)
    (by decide) ⟨by decide, by decide⟩ (by decide)
  have missed := checks_raise_no_alarm .tables moving ⟨_, opened⟩ rfl .paginationMissesForward
    (by decide) ⟨by decide, by decide⟩ moves
  rw [Nat.ceilDiv_eq_add_pred_div, if_pos (by decide)] at drained
  exact ⟨drained, missed⟩

/-- A clock that has moved past the end of the calendar cannot be read, and a check breaks off. -/
theorem check_breaks_off_past_calendar :
    let session : Session MemoryStore := {
      store := .empty
      clock := ⟨Timestamp.maxMicros, 0⟩
      callTick := 1 }
    (session.draws.take Check.creatorIsOwner.draws).Nodup ∧
      (∀ reading ∈ session.callTick.readings Check.creatorIsOwner.calls session.clock,
        0 ≤ reading.micros) ∧
      session.MovesOn Check.creatorIsOwner.calls ∧
      (Check.creatorIsOwner.run session).1 ≠ .ok () := by
  intro session
  refine ⟨by decide, by decide, by decide, by decide +kernel⟩

end DocAccess.Testing
