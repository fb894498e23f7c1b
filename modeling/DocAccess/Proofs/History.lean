import DocAccess.Store.Operation

/-!
# Histories

What a store has been asked, operation by operation, each at its own moment. A history
says nothing of the answers: they follow from the store.
-/

set_option autoImplicit false

namespace DocAccess

/-- An operation and the moment at which it is asked. -/
structure Asked where
  Answer : Type
  moment : Moment
  operation : Operation Answer

variable {σ : Type} [Store σ]

/-- The store after a history. -/
def Store.after (store : σ) (history : List Asked) : σ :=
  history.foldl (fun store asked => (Store.step store asked.moment asked.operation).2) store

namespace Store

@[simp]
theorem after_cons (store : σ) (asked : Asked) (history : List Asked) :
    after store (asked :: history) =
      after (Store.step store asked.moment asked.operation).2 history := rfl

theorem after_append (store : σ) (earlier later : List Asked) :
    after store (earlier ++ later) = after (after store earlier) later :=
  List.foldl_append

end Store

/-- The moment at a count of microseconds, at which the identifier of a number is drawn. -/
def Moment.ofNumbers (micros : Int) (drawn : Nat) : Moment :=
  ⟨⟨micros, ⟨0, by decide⟩⟩, .ofNat drawn⟩

/-- A short history: a document is made, and a guest and an editor get their permissions. -/
def shortHistory : List Asked := [
  ⟨DocumentId, .ofNumbers 1 1, .createDocument ⟨.ofNat 7⟩ {}⟩,
  ⟨GuestId, .ofNumbers 2 2, .createGuest ⟨.ofNat 7⟩ ⟨.ofNat 1⟩ .viewer⟩,
  ⟨Unit, .ofNumbers 3 3, .upsertUser ⟨.ofNat 8⟩ ⟨.ofNat 1⟩ .editor⟩]

/-- Whether a clock can be read. -/
def Moment.isReadable (moment : Moment) : Bool :=
  moment.clock.now?.isSome

/-- Whether a clock shows no less than another. -/
def Clock.isReached (later earlier : Clock) : Prop :=
  earlier.micros < later.micros ∨
    earlier.micros = later.micros ∧ earlier.subNanos ≤ later.subNanos

instance (later earlier : Clock) : Decidable (later.isReached earlier) :=
  inferInstanceAs (Decidable (_ ∨ _))

/-- A clock that never goes backwards over the moments of a run. -/
def Steady (moments : List Moment) : Prop :=
  moments.Pairwise fun earlier later => later.clock.isReached earlier.clock

instance (moments : List Moment) : Decidable (Steady moments) :=
  inferInstanceAs (Decidable (moments.Pairwise _))

theorem Clock.isReached.now?_le {later earlier : Clock} (reached : later.isReached earlier)
    {a b : Timestamp} (first : earlier.now? = some a) (second : later.now? = some b) :
    a.nanos ≤ b.nanos := by
  have reading {clock : Clock} {now : Timestamp} (read : clock.now? = some now) :
      now.micros = clock.micros ∧ now.subNanos.val = 0 := by
    unfold now? at read
    split at read
    · obtain ⟨micros, whole⟩ := Timestamp.micros_of_atMicros? read
      exact ⟨micros, congrArg Fin.val (of_decide_eq_true whole)⟩
    · cases read
  obtain ⟨wholes, rests⟩ := reading first
  obtain ⟨wholes', rests'⟩ := reading second
  have order : earlier.micros ≤ later.micros := by
    rcases reached with less | ⟨same, _⟩
    · exact Int.le_of_lt less
    · exact Int.le_of_eq same
  simp only [Timestamp.nanos, wholes, wholes', rests, rests']
  omega

end DocAccess
