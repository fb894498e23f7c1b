import DocAccess.Service

/-!
# Sessions

A store together with the world it runs in: a clock that moves at calls, a supply
of identifiers, and a record of the calls. A session can answer one call itself
with a failure, to see what a caller makes of it.

A run is a program over a session. It ends with a value, with a failure of the
store, or by breaking off, which is also what a check does that has found
something wrong.
-/

set_option autoImplicit false

namespace DocAccess.Testing

/-- The identifiers to be drawn: first those in the queue, then those of the
numbers that follow one another. -/
structure Draws where
  queue : List Uuid := []
  last : Nat := 0
  deriving DecidableEq

/-- The next identifier, marked as a random one, and the supply after it. -/
def Draws.next (draws : Draws) : Uuid × Draws :=
  match draws.queue with
  | id :: rest => (id.asRandom, { draws with queue := rest })
  | [] => ((Uuid.ofNat (draws.last + 1)).asRandom, { draws with last := draws.last + 1 })

/-- How the clock moves at calls: the first calls have planned readings, one at the
call and one after it; before each later call the clock moves by one amount. -/
structure Ticks where
  planned : List (Clock × Clock) := []
  /-- In microseconds. -/
  amount : Int := 0
  deriving DecidableEq

/-- A clock that moves by an amount from the first call on. -/
instance : Coe Int Ticks := ⟨fun amount => { amount }⟩

instance {n : Nat} : OfNat Ticks n := ⟨{ amount := n }⟩

namespace Ticks

/-- The reading at the next call. -/
def atCall (ticks : Ticks) (clock : Clock) : Clock :=
  match ticks.planned with
  | (reading, _) :: _ => reading
  | [] => clock.advance ticks.amount

/-- The reading after the next call. -/
def afterCall (ticks : Ticks) (clock : Clock) : Clock :=
  match ticks.planned with
  | (_, reading) :: _ => reading
  | [] => clock.advance ticks.amount

/-- How the clock moves after the next call. -/
def later (ticks : Ticks) : Ticks :=
  { ticks with planned := ticks.planned.tail }

end Ticks

/-- A call of the store and its outcome. -/
structure Call where
  Answer : Type
  operation : Operation Answer
  outcome : Outcome Answer

/-- A store in its world. -/
structure Session (σ : Type) where
  store : σ
  clock : Clock
  callTick : Ticks := 0
  draws : Draws := {}
  /-- The number of a call that is not made, and its answer instead. -/
  injected : Option (Nat × StoreError) := none
  made : Nat := 0
  /-- The calls that have answered, latest first. -/
  calls : List Call := []

/-- A program over a session. -/
def Run (σ α : Type) : Type 1 := Session σ → Outcome α × Session σ

namespace Run

variable {σ α β : Type}

/-- Goes on with the value of a run, if it has one. -/
def bind (run : Run σ α) (next : α → Run σ β) : Run σ β := fun session =>
  match run session with
  | (.ok value, session) => next value session
  | (.error failure, session) => (.error failure, session)
  | (.aborted, session) => (.aborted, session)

instance : Monad (Run σ) where
  pure value := fun session => (.ok value, session)
  bind := bind

/-- Ends with an outcome that needs no session. -/
def ofOutcome (outcome : Outcome α) : Run σ α := fun session => (outcome, session)

def abort : Run σ α := ofOutcome .aborted

/-- Breaks off unless a condition holds. -/
def ensure (condition : Bool) : Run σ Unit :=
  if condition then pure () else abort

/-- The value of a run that must not fail. -/
def expect (run : Run σ α) : Run σ α := fun session =>
  match run session with
  | (.error _, session) => (.aborted, session)
  | answered => answered

/-- Breaks off unless a run fails in the given way. -/
def expectFailure (kind : ErrorKind) (run : Run σ α) : Run σ Unit := fun session =>
  match run session with
  | (.error failure, session) => (if failure.kind = kind then .ok () else .aborted, session)
  | (_, session) => (.aborted, session)

def draw : Run σ Uuid := fun session =>
  let (id, draws) := session.draws.next
  (.ok id, { session with draws := draws })

/-- The position before the newest row, now. -/
def beginning (sortField : SortField) : Run σ Cursor := fun session =>
  match Cursor.beginning? session.clock sortField with
  | some cursor => (.ok cursor, session)
  | none => (.aborted, session)

/-- Records an outcome as the answer of a call, unless it broke off. -/
def record (operation : Operation α) (outcome : Outcome α) (session : Session σ) : Session σ :=
  match outcome with
  | .aborted => session
  | _ => { session with calls := ⟨α, operation, outcome⟩ :: session.calls }

def call [Store σ] (operation : Operation α) : Run σ α := fun session =>
  let clock := session.callTick.atCall session.clock
  let number := session.made
  let session := { session with
    clock := session.callTick.afterCall session.clock
    callTick := session.callTick.later
    made := number + 1 }
  match session.injected.filter fun entry => entry.1 = number with
  | some (_, failure) => (.error failure, record operation (.error failure) session)
  | none =>
      let (drawn, rest) := session.draws.next
      let draws := if Store.draws session.store operation then rest else session.draws
      let (outcome, store) := Store.step session.store ⟨clock, drawn⟩ operation
      (outcome, record operation outcome { session with store := store, draws := draws })

def request [Store σ] (config : ServiceConfig) (request : Request α) : Run σ α := fun session =>
  match Service.resolve config session.clock request with
  | .ok operation => call operation session
  | .error failure => (.error failure, session)
  | .aborted => (.aborted, session)

end Run
end DocAccess.Testing
