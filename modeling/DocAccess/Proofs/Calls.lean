import DocAccess.Proofs.Stepping
import DocAccess.Service

/-!
# Calls of the service

A client's request either does not get past the service, which leaves the store alone, or
it becomes an operation that does what the request says and makes nobody owner. So a run of
calls is one of operations, each with its own ways to end.
-/

set_option autoImplicit false

namespace DocAccess

variable {Listed Other α : Type}

/-! ## What an action does -/

namespace Action

/-- Whether an action is to give somebody the level owner, other than by making a
document. -/
def grantsOwner : Action Listed α → Bool
  | .upsertUser _ _ level => level = .owner
  | .updateGuest _ level => level = .owner
  | .createGuest _ _ level => level = .owner
  | _ => false

/-- For whom an action has made a document, and which. -/
def made? : Action Listed α → Outcome α → Option (UserId × DocumentId)
  | .createDocument creator _, .ok id => some (creator, id)
  | _, _ => none

/-- Which document an action has deleted. -/
def deleted? : Action Listed α → Outcome α → Option DocumentId
  | .deleteDocument id, .ok _ => some id
  | _, _ => none

theorem isWrite_of_made? {action : Action Listed α} {outcome : Outcome α}
    {made : UserId × DocumentId} (makes : action.made? outcome = some made) :
    (∃ value, outcome = .ok value) ∧ action.isWrite = true := by
  cases action with
  | createDocument creator fields =>
      cases outcome with
      | ok id => exact ⟨⟨id, rfl⟩, rfl⟩
      | error failure => cases makes
      | aborted => cases makes
  | _ => cases makes

theorem isWrite_of_deleted? {action : Action Listed α} {outcome : Outcome α} {id : DocumentId}
    (deletes : action.deleted? outcome = some id) :
    (∃ value, outcome = .ok value) ∧ action.isWrite = true := by
  cases action with
  | deleteDocument other =>
      cases outcome with
      | ok value => exact ⟨⟨value, rfl⟩, rfl⟩
      | error failure => cases deletes
      | aborted => cases deletes
  | _ => cases deletes

/-- Two actions that do the same but for the part of a listing beside its scope. -/
structure Alike (action : Action Listed α) (other : Action Other α) : Prop where
  grantsOwner : other.grantsOwner = action.grantsOwner
  made? (outcome : Outcome α) : other.made? outcome = action.made? outcome
  deleted? (outcome : Outcome α) : other.deleted? outcome = action.deleted? outcome

private theorem alike_of_mapListed {complete : Listed → Outcome Other} {action : Action Listed α}
    {other : Action Other α} (mapped : action.mapListed complete = .ok other) :
    action.Alike other := by
  cases action with
  | createDocument creator fields =>
      cases mapped
      exact ⟨rfl, fun outcome => by cases outcome <;> rfl, fun _ => rfl⟩
  | deleteDocument id =>
      cases mapped
      exact ⟨rfl, fun _ => rfl, fun outcome => by cases outcome <;> rfl⟩
  | listPermissions document listed =>
      obtain ⟨completed, -, same⟩ := Outcome.bind_eq_ok_iff.1 mapped
      cases same
      exact ⟨rfl, fun _ => rfl, fun _ => rfl⟩
  | listDocuments principal listed =>
      obtain ⟨completed, -, same⟩ := Outcome.bind_eq_ok_iff.1 mapped
      cases same
      exact ⟨rfl, fun _ => rfl, fun _ => rfl⟩
  | _ =>
      cases mapped
      exact ⟨rfl, fun _ => rfl, fun _ => rfl⟩

end Action

/-! ## Requests -/

namespace Service

variable {config : ServiceConfig} {clock : Clock} {request : Request α} {operation : Operation α}

private theorem ungranted_of_refusal? (accepted : refusal? request = none) :
    request.grantsOwner = false := by
  cases request with
  | upsertUser user document level =>
      simpa [refusal?, Action.grantsOwner] using accepted
  | updateGuest guest level => simpa [refusal?, Action.grantsOwner] using accepted
  | createGuest creator document level =>
      simpa [refusal?, Action.grantsOwner] using accepted
  | _ => rfl

theorem resolve_eq_ok (resolved : resolve config clock request = .ok operation) :
    request.Alike operation ∧ operation.grantsOwner = false := by
  unfold resolve at resolved
  cases refused : refusal? request with
  | some failure =>
      rw [refused] at resolved
      cases resolved
  | none =>
      rw [refused] at resolved
      have alike := Action.alike_of_mapListed resolved
      exact ⟨alike, alike.grantsOwner.trans (ungranted_of_refusal? refused)⟩

/-- The ways in which a call can end over the maps of a store. -/
inductive CallEnds (maps : MemoryStore) (moment : Moment) (request : Request α)
    (outcome : Outcome α) : MemoryStore → Prop where
  | refused (fails : ∀ value, outcome ≠ .ok value) : CallEnds maps moment request outcome maps
  | asked {operation : Operation α} {after : MemoryStore} (alike : request.Alike operation)
      (ungranted : operation.grantsOwner = false)
      (changes : maps.Change moment operation outcome after) :
      CallEnds maps moment request outcome after

end Service

theorem StoreKind.Models.serve {kind : StoreKind} {store : kind.State} {maps : MemoryStore}
    (models : kind.Models store maps) (config : ServiceConfig) (moment : Moment)
    (request : Request α) :
    ∃ after, Service.CallEnds maps moment request (Service.step config store moment request).1
        after ∧ kind.Models (Service.step config store moment request).2 after := by
  unfold Service.step
  cases resolved : Service.resolve config moment.clock request with
  | ok operation =>
      obtain ⟨alike, ungranted⟩ := Service.resolve_eq_ok resolved
      obtain ⟨after, changes, models'⟩ := models.step moment operation
      exact ⟨after, .asked alike ungranted changes, models'⟩
  | error failure =>
      refine ⟨maps, .refused ?_, models⟩
      intro value done
      cases done
  | aborted =>
      refine ⟨maps, .refused ?_, models⟩
      intro value done
      cases done

/-! ## Runs -/

/-- A request and the moment at which a client makes it. -/
structure Requested where
  Answer : Type
  moment : Moment
  request : Request Answer

/-- A request and how it has ended. -/
structure Call where
  Answer : Type
  request : Request Answer
  outcome : Outcome Answer

namespace Service

variable {σ : Type} [Store σ]

/-- The store after some requests. -/
def after (config : ServiceConfig) (store : σ) (requests : List Requested) : σ :=
  requests.foldl (fun store asked => (step config store asked.moment asked.request).2) store

/-- Some requests with their answers. -/
def calls (config : ServiceConfig) : σ → List Requested → List Call
  | _, [] => []
  | store, asked :: later =>
      ⟨asked.Answer, asked.request, (step config store asked.moment asked.request).1⟩ ::
        calls config (step config store asked.moment asked.request).2 later

end Service
end DocAccess
