import DocAccess.Proofs.Draining
import DocAccess.Proofs.Failure
import DocAccess.Proofs.Revocation
import DocAccess.Proofs.Testing.Runs
import DocAccess.Proofs.Timestamps

/-!
# What a session supplies

The identifiers that a session has yet to give out and the readings that its clock has yet to
show, both before any call is made. A clock that keeps time over the next calls paces them:
each comes by a gap after the one before.
-/

set_option autoImplicit false

namespace DocAccess

variable {α : Type}

/-! ## What a session supplies -/

/-- Whether a clock stands between the epoch and the end of the calendar. -/
def Clock.InCalendar (clock : Clock) : Prop :=
  0 ≤ clock.micros ∧ clock.micros ≤ Timestamp.maxMicros

instance (clock : Clock) : Decidable clock.InCalendar :=
  inferInstanceAs (Decidable (_ ∧ _))

theorem Clock.InCalendar.exists_now {clock : Clock} (stands : clock.InCalendar) :
    ∃ now, clock.now? = some now ∧ now.nanos = clock.micros * 1000 := by
  obtain ⟨lower, upper⟩ := stands
  have inRange : Timestamp.minMicros ≤ clock.micros ∧ clock.micros ≤ Timestamp.maxMicros :=
    ⟨Int.le_trans (by decide) lower, upper⟩
  refine ⟨⟨clock.micros, 0, inRange.1, inRange.2⟩, ?_, ?_⟩
  · rw [Clock.now?, if_pos lower, Timestamp.atMicros?, Timestamp.ofParts?, dif_pos inRange]
  · simp [Timestamp.nanos]

namespace Testing

/-- The next identifiers of a supply. -/
def Draws.take : (count : Nat) → Draws → List Uuid
  | 0, _ => []
  | count + 1, draws => draws.next.1 :: take count draws.next.2

theorem Draws.take_sublist (count : Nat) (draws : Draws) :
    (draws.take count).Sublist (draws.take (count + 1)) := by
  induction count generalizing draws with
  | zero => exact List.nil_sublist _
  | succ count ih => exact (ih draws.next.2).cons_cons _

namespace Ticks

/-- The readings of a clock over its next calls: now, and at each call and after it. -/
def readings : (calls : Nat) → Ticks → Clock → List Clock
  | 0, _, clock => [clock]
  | calls + 1, ticks, clock =>
      clock :: ticks.atCall clock :: readings calls ticks.later (ticks.afterCall clock)

/-- The readings at the next calls. -/
def callReadings : (calls : Nat) → Ticks → Clock → List Clock
  | 0, _, _ => []
  | calls + 1, ticks, clock =>
      ticks.atCall clock :: callReadings calls ticks.later (ticks.afterCall clock)

/-- Whether a clock can be read over its next calls and comes by a gap further at each of
them, beginning with a reading before. -/
def Paced (gap : Int) : (calls : Nat) → Ticks → (last : Int) → Clock → Prop
  | 0, _, last, clock => clock.InCalendar ∧ last ≤ clock.micros
  | calls + 1, ticks, last, clock =>
      (clock.InCalendar ∧ last ≤ clock.micros) ∧ (ticks.atCall clock).InCalendar ∧
        clock.micros ≤ (ticks.atCall clock).micros ∧
        last + gap ≤ (ticks.atCall clock).micros ∧
        Paced gap calls ticks.later (ticks.atCall clock).micros (ticks.afterCall clock)

theorem callReadings_sublist (calls : Nat) (ticks : Ticks) (clock : Clock) :
    (ticks.callReadings calls clock).Sublist (ticks.readings calls clock) := by
  induction calls generalizing ticks clock with
  | zero => exact List.nil_sublist _
  | succ calls ih => exact ((ih _ _).cons_cons _).cons _

private theorem mem_readings (calls : Nat) (ticks : Ticks) (clock : Clock) :
    clock ∈ ticks.readings calls clock := by
  cases calls <;> exact List.mem_cons_self

variable {gap last : Int} {calls : Nat} {ticks : Ticks} {clock : Clock}

theorem Paced.now (paced : ticks.Paced gap calls last clock) :
    clock.InCalendar ∧ last ≤ clock.micros := by
  cases calls with
  | zero => exact paced
  | succ calls => exact paced.1

theorem paced_of_readings
    (inCalendar : ∀ reading ∈ ticks.readings calls clock, reading.InCalendar)
    (forward : (ticks.readings calls clock).Pairwise fun earlier later =>
      earlier.micros ≤ later.micros)
    (spaced : (ticks.callReadings calls clock).Pairwise fun earlier later =>
      earlier.micros + gap ≤ later.micros)
    (before : last ≤ clock.micros)
    (apart : ∀ reading ∈ ticks.callReadings calls clock, last + gap ≤ reading.micros) :
    ticks.Paced gap calls last clock := by
  induction calls generalizing ticks clock last with
  | zero => exact ⟨inCalendar _ List.mem_cons_self, before⟩
  | succ calls ih =>
      obtain ⟨ahead, forward⟩ := List.pairwise_cons.1 forward
      obtain ⟨aheadOfCall, forward⟩ := List.pairwise_cons.1 forward
      obtain ⟨spacedHere, spaced⟩ := List.pairwise_cons.1 spaced
      refine ⟨⟨inCalendar _ List.mem_cons_self, before⟩,
        inCalendar _ (List.mem_cons_of_mem _ List.mem_cons_self), ahead _ List.mem_cons_self,
        apart _ List.mem_cons_self, ih ?_ forward spaced ?_ spacedHere⟩
      · intro reading member
        exact inCalendar _ (List.mem_cons_of_mem _ (List.mem_cons_of_mem _ member))
      · exact aheadOfCall _ (mem_readings _ _ _)

end Ticks

/-- Whether the clock of a session can be read over its next calls and never goes back. -/
structure Session.KeepsTime {σ : Type} (session : Session σ) (calls : Nat) : Prop where
  inCalendar : ∀ reading ∈ session.callTick.readings calls session.clock, reading.InCalendar
  forward : (session.callTick.readings calls session.clock).Pairwise fun earlier later =>
    earlier.micros ≤ later.micros

/-- Whether the clock of a session moves on from each of its next calls to the one after. -/
def Session.MovesOn {σ : Type} (session : Session σ) (calls : Nat) : Prop :=
  (session.callTick.callReadings calls session.clock).Pairwise fun earlier later =>
    earlier.micros < later.micros

instance {σ : Type} (session : Session σ) (calls : Nat) : Decidable (session.MovesOn calls) :=
  inferInstanceAs (Decidable (List.Pairwise _ _))

namespace Session

variable {σ : Type} {session : Session σ} {calls : Nat}

theorem KeepsTime.le_callReading (keeps : session.KeepsTime calls) :
    ∀ reading ∈ session.callTick.callReadings calls session.clock,
      session.clock.micros ≤ reading.micros := by
  intro reading member
  cases calls with
  | zero => cases member
  | succ calls =>
      obtain ⟨ahead, -⟩ := List.pairwise_cons.1 keeps.forward
      exact ahead reading (((Ticks.callReadings_sublist _ _ _).cons_cons _).subset member)

theorem KeepsTime.paced (keeps : session.KeepsTime calls) :
    session.callTick.Paced 0 calls session.clock.micros session.clock := by
  refine Ticks.paced_of_readings keeps.inCalendar keeps.forward ?_ (Int.le_refl _) ?_
  · exact (keeps.forward.sublist (Ticks.callReadings_sublist _ _ _)).imp fun order => by omega
  · intro reading member
    have := keeps.le_callReading reading member
    omega

theorem MovesOn.paced (moves : session.MovesOn calls) (keeps : session.KeepsTime calls) :
    session.callTick.Paced 1 calls (session.clock.micros - 1) session.clock := by
  refine Ticks.paced_of_readings keeps.inCalendar keeps.forward ?_ (by omega) ?_
  · exact moves.imp fun order => by omega
  · intro reading member
    have := keeps.le_callReading reading member
    omega

end Session
end Testing
end DocAccess
