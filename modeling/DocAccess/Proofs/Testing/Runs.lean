import DocAccess.Testing.Session

/-!
# What runs end with

A run is followed by what holds after each of its parts: of the value that the part has ended
with, and of the session that it has left. A part that breaks off has no such value, so what
is shown of a run in this way includes that it does not break off.
-/

set_option autoImplicit false

namespace DocAccess.Testing.Run

variable {σ α β : Type} {run : Run σ α} {session : Session σ}

instance : LawfulMonad (Run σ) := by
  refine LawfulMonad.mk' (Run σ) ?_ ?_ ?_
  · intro α run
    funext session
    show Run.bind run (fun value => pure value) session = run session
    unfold Run.bind
    cases run session with
    | mk outcome after => cases outcome <;> rfl
  · intro α β value next
    rfl
  · intro α β γ run next last
    funext session
    show Run.bind (Run.bind run next) last session =
      Run.bind run (fun value => Run.bind (next value) last) session
    unfold Run.bind
    cases run session with
    | mk outcome after => cases outcome <;> rfl

/-- Whether a run from a session ends with a value, and how. -/
def Yields (run : Run σ α) (session : Session σ) (goal : α → Session σ → Prop) : Prop :=
  ∃ value after, run session = (.ok value, after) ∧ goal value after

/-- Whether a run from a session ends with a failure of a kind, and where. -/
def Fails (run : Run σ α) (kind : ErrorKind) (session : Session σ) (goal : Session σ → Prop) :
    Prop :=
  ∃ failure after, run session = (.error failure, after) ∧ failure.kind = kind ∧ goal after

variable {middle : α → Session σ → Prop} {goal : β → Session σ → Prop} {next : α → Run σ β}
  {condition : Bool}

theorem yields_pure {value : α} (holds : middle value session) :
    (pure value : Run σ α).Yields session middle :=
  ⟨value, session, rfl, holds⟩

theorem Yields.bind (yields : run.Yields session middle)
    (onward : ∀ value after, middle value after → (next value).Yields after goal) :
    (run >>= next).Yields session goal := by
  obtain ⟨value, after, ends, holds⟩ := yields
  obtain ⟨result, last, onEnds, reached⟩ := onward value after holds
  refine ⟨result, last, ?_, reached⟩
  show Run.bind run next session = _
  rw [Run.bind, ends]
  exact onEnds

theorem Yields.mono (yields : run.Yields session middle) {weaker : α → Session σ → Prop}
    (implies : ∀ value after, middle value after → weaker value after) :
    run.Yields session weaker := by
  obtain ⟨value, after, ends, holds⟩ := yields
  exact ⟨value, after, ends, implies value after holds⟩

theorem Yields.expect (yields : run.Yields session middle) :
    (Run.expect run).Yields session middle := by
  obtain ⟨value, after, ends, holds⟩ := yields
  refine ⟨value, after, ?_, holds⟩
  rw [Run.expect, ends]

theorem Yields.outcome_eq {run : Run σ Unit} {goal : Unit → Session σ → Prop}
    (yields : run.Yields session goal) : (run session).1 = .ok () := by
  obtain ⟨value, after, ends, -⟩ := yields
  rw [ends]

theorem yields_of_outcome {value : α} (ends : (run session).1 = .ok value) :
    run.Yields session fun found _ => found = value :=
  ⟨value, (run session).2, Prod.ext ends rfl, rfl⟩

/-- What breaks off after a part that does not, breaks off. -/
theorem Yields.aborts (yields : run.Yields session middle)
    (onward : ∀ value after, middle value after → (next value after).1 = .aborted) :
    ((run >>= next) session).1 = .aborted := by
  obtain ⟨value, after, ends, holds⟩ := yields
  show (Run.bind run next session).1 = .aborted
  rw [Run.bind, ends]
  exact onward value after holds

theorem aborts_of_expect (aborted : (run session).1 = .aborted) :
    ((Run.expect run >>= next) session).1 = .aborted := by
  show (Run.bind (Run.expect run) next session).1 = .aborted
  unfold Run.bind Run.expect
  cases ends : run session with
  | mk outcome after =>
      rw [ends] at aborted
      obtain rfl : outcome = .aborted := aborted
      rfl

theorem Fails.expectFailure {kind : ErrorKind} {goal : Session σ → Prop}
    (fails : run.Fails kind session goal) :
    (Run.expectFailure kind run).Yields session fun _ after => goal after := by
  obtain ⟨failure, after, ends, same, holds⟩ := fails
  refine ⟨(), after, ?_, holds⟩
  rw [Run.expectFailure, ends]
  simp [same]

theorem yields_ensure {goal : Unit → Session σ → Prop} (holds : condition = true)
    (reached : goal () session) : (Run.ensure condition : Run σ Unit).Yields session goal := by
  rw [Run.ensure, if_pos holds]
  exact yields_pure reached

theorem yields_ensure_bind {next : Unit → Run σ β} (holds : condition = true)
    (onward : (next ()).Yields session goal) :
    ((Run.ensure condition : Run σ Unit) >>= next).Yields session goal := by
  rw [Run.ensure, if_pos holds]
  exact onward

/-! ## Loops -/

variable {ι : Type} {items : List ι}

/-- The invariant speaks of what is left to do. -/
theorem yields_forM {body : ι → Run σ Unit} (invariant : List ι → Session σ → Prop)
    (start : invariant items session)
    (step : ∀ item later session, invariant (item :: later) session →
      (body item).Yields session fun _ after => invariant later after) :
    (items.forM body).Yields session fun _ after => invariant [] after := by
  induction items generalizing session with
  | nil => exact yields_pure start
  | cons item later ih =>
      refine (step item later session start).bind ?_
      intro _ after holds
      exact ih holds

/-- The invariant speaks of what has been made and of what is left to do. -/
theorem yields_mapM {body : ι → Run σ α} (invariant : List α → List ι → Session σ → Prop)
    (made : List α) (start : invariant made items session)
    (step : ∀ made item later session, invariant made (item :: later) session →
      (body item).Yields session fun value after => invariant (made ++ [value]) later after) :
    (items.mapM body).Yields session fun values after => invariant (made ++ values) [] after := by
  induction items generalizing session made with
  | nil =>
      rw [List.mapM_nil]
      exact yields_pure (made.append_nil.symm ▸ start)
  | cons item later ih =>
      rw [List.mapM_cons]
      refine (step made item later session start).bind ?_
      intro value after holds
      refine (ih _ holds).bind ?_
      intro values last reached
      refine yields_pure ?_
      rwa [List.append_assoc] at reached

end DocAccess.Testing.Run
