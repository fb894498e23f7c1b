import DocAccess.Proofs.Events

/-!
# Where a permission comes from

What a principal holds on a document follows from what has happened: the last event that has
made the permission or taken it away says whether there is one, who has given it and since
when, and the last event that has set its level says the rest.
-/

set_option autoImplicit false

namespace DocAccess

variable {α : Type}

/-! ## What an event does to a permission -/

def Contents.holds (contents : Contents) (key : PermissionKey) : Bool :=
  contents.permissions.any fun row => row.key = key

/-- Whether a guest has been minted for a document. -/
def Contents.hosts (contents : Contents) (guest : GuestId) (id : DocumentId) : Bool :=
  contents.guests.any fun record => record.id = guest && record.documentId = id

namespace Action

/-- The permission that an operation has made at a reading of the clock. A user who holds one
is not given another. -/
def granted? (before : Contents) (now : Timestamp) : Operation α → α → Option Permission
  | .createDocument creator _, id => some (.ofOwner creator id now)
  | .upsertUser user id level, _ =>
      if before.holds ⟨.ofUser user, id⟩ then none else some (.ofUser user id level now)
  | .createGuest creator id level, guest => some (.ofGuest ⟨guest, id, creator, now⟩ level)
  | _, _ => none

/-- Whether an operation takes a permission away, by itself or with its document. -/
def revokes (key : PermissionKey) : Operation α → Bool
  | .deletePermission principal id => key = ⟨principal, id⟩
  | .deleteDocument id => key.document = id
  | _ => false

/-- The level that an operation has given to a permission, be it new or not. -/
def leveled? (before : Contents) (key : PermissionKey) : Operation α → α → Option PermissionLevel
  | .createDocument creator _, id => if key = ⟨.ofUser creator, id⟩ then some .owner else none
  | .upsertUser user id level, _ => if key = ⟨.ofUser user, id⟩ then some level else none
  | .updateGuest guest level, _ =>
      if key.recipient = .ofGuest guest && before.hosts guest key.document then some level
      else none
  | .createGuest _ id level, guest => if key = ⟨.ofGuest guest, id⟩ then some level else none
  | _, _ => none

end Action

/-- A permission with the level that has last been set, if one has. -/
def Permission.leveled (permission : Permission) :
    Option (PermissionLevel × Timestamp) → Permission
  | some (level, now) => permission.withLevel level now
  | none => permission

private theorem Permission.leveled_leveled (permission : Permission)
    (first second : Option (PermissionLevel × Timestamp)) :
    (permission.leveled first).leveled second = permission.leveled (second.or first) := by
  cases second with
  | none => rfl
  | some later => cases first <;> rfl

namespace Event

/-- The permission of a name as an event has made it. -/
def granted? (key : PermissionKey) (event : Event) : Option Permission := do
  let value ← event.outcome.value?
  let now ← event.moment.clock.now?
  let row ← event.operation.granted? event.before now value
  if row.key = key then some row else none

def revokes (key : PermissionKey) (event : Event) : Bool :=
  event.outcome.value?.isSome && event.operation.revokes key

/-- The level that an event has given to the permission of a name, and when. -/
def leveled? (key : PermissionKey) (event : Event) : Option (PermissionLevel × Timestamp) := do
  let value ← event.outcome.value?
  let now ← event.moment.clock.now?
  let level ← event.operation.leveled? event.before key value
  return (level, now)

/-- Whether an event has made the permission of a name or taken it away. -/
def settles (key : PermissionKey) (event : Event) : Bool :=
  (event.granted? key).isSome || event.revokes key

/-- Whether an event has had to do with the permission of a name. -/
def touches (key : PermissionKey) (event : Event) : Bool :=
  event.settles key || (event.leveled? key).isSome

/-- What an event leaves of what has stood under a name. -/
def leaves (key : PermissionKey) (row : Option Permission) (event : Event) : Option Permission :=
  match event.granted? key with
  | some made => some made
  | none =>
      if event.revokes key then none else row.map fun row => row.leveled (event.leveled? key)

variable {key : PermissionKey} {before : Contents} {moment : Moment} {now : Timestamp}
  {row : Option Permission} {user : UserId} {id : DocumentId} {level : PermissionLevel}

private theorem leaves_failed {operation : Operation α} {failure : StoreError} :
    (Event.mk α before moment operation (.error failure)).leaves key row = row := by
  simp [leaves, Permission.leveled, granted?, revokes, leveled?, Outcome.value?]

private theorem leaves_answered {operation : Operation α} {value : α}
    (reads : operation.isWrite = false) :
    (Event.mk α before moment operation (.ok value)).leaves key row = row := by
  cases operation with
  | createDocument creator fields => cases reads
  | deleteDocument id => cases reads
  | upsertUser user id level => cases reads
  | updateGuest guest level => cases reads
  | deletePermission principal id => cases reads
  | createGuest creator id level => cases reads
  | _ =>
      simp [leaves, Permission.leveled, granted?, revokes, leveled?, Action.granted?,
        Action.revokes, Action.leveled?]

private theorem leaves_made {operation : Operation α} {value : α} {made : Permission}
    (read : moment.clock.now? = some now) (grants : operation.granted? before now value = some made)
    (keeps : operation.revokes key = false)
    (levels : operation.leveled? before key value =
      if key = made.key then some made.level else none) :
    (Event.mk α before moment operation (.ok value)).leaves key row =
      if made.key = key then some made else row := by
  by_cases named : made.key = key
  · simp [leaves, granted?, Outcome.value?, read, grants, named]
  · simp [leaves, Permission.leveled, granted?, revokes, leveled?, Outcome.value?, read, grants,
      keeps, levels, named, Ne.symm named]

private theorem leaves_releveled {operation : Operation α} {value : α} {name : PermissionKey}
    (read : moment.clock.now? = some now) (grants : operation.granted? before now value = none)
    (keeps : operation.revokes key = false)
    (levels : operation.leveled? before key value = if key = name then some level else none) :
    (Event.mk α before moment operation (.ok value)).leaves key row =
      if name = key then row.map fun row => row.withLevel level now else row := by
  by_cases named : name = key
  · simp [leaves, Permission.leveled, granted?, revokes, leveled?, Outcome.value?, read, grants,
      keeps, levels, named]
  · simp [leaves, Permission.leveled, granted?, revokes, leveled?, Outcome.value?, read, grants,
      keeps, levels, named, Ne.symm named]

private theorem leaves_revoked {operation : Operation α} {value : α}
    (grants : ∀ now, operation.granted? before now value = none)
    (levels : operation.leveled? before key value = none) :
    (Event.mk α before moment operation (.ok value)).leaves key row =
      if operation.revokes key then none else row := by
  by_cases taken : operation.revokes key = true
  · simp [leaves, granted?, revokes, Outcome.value?, grants, taken]
  · simp [leaves, Permission.leveled, granted?, revokes, leveled?, Outcome.value?, grants, levels,
      taken]

end Event

/-! ## Changes -/

namespace MemoryStore.Integrity

variable {maps : MemoryStore}

theorem holds_eq (intact : maps.Integrity) (key : PermissionKey) :
    maps.contents.holds key = maps.permissions.contains key :=
  Map.any_values intact.permission_key key

private theorem hosts_iff (intact : maps.Integrity) {guest : GuestId} {record : Guest}
    (found : maps.guests[guest]? = some record) (id : DocumentId) :
    maps.contents.hosts guest id = true ↔ id = record.documentId := by
  simp only [Contents.hosts, List.any_eq_true, Bool.and_eq_true, decide_eq_true_eq]
  constructor
  · intro given
    obtain ⟨other, member, rfl, rfl⟩ := given
    obtain ⟨name, looked⟩ := Map.mem_values.1 member
    rw [← intact.guest_id name other looked, found] at looked
    cases looked
    rfl
  · rintro rfl
    exact ⟨record, Map.mem_values.2 ⟨guest, found⟩, intact.guest_id guest record found, rfl⟩

end MemoryStore.Integrity

private theorem MemoryStore.Change.permission_eq {maps after : MemoryStore} {moment : Moment}
    {operation : Operation α} {outcome : Outcome α} (intact : maps.Integrity)
    (changes : maps.Change moment operation outcome after) (ends : outcome ≠ .aborted)
    (key : PermissionKey) :
    after.permissions[key]? =
      (Event.mk α maps.contents moment operation outcome).leaves key maps.permissions[key]? := by
  cases changes with
  | refused => exact Event.leaves_failed.symm
  | answered reads => exact (Event.leaves_answered reads).symm
  | documentMade read fresh =>
      rw [Map.getElem?_insert, Event.leaves_made read rfl rfl rfl]
      rfl
  | documentChanged read sets found =>
      simp [Event.leaves, Event.granted?, Event.revokes, Event.leveled?, Action.granted?,
        Action.revokes, Action.leveled?, Permission.leveled]
  | documentDeleted present =>
      rw [Event.leaves_revoked (fun _ => rfl) rfl, Std.ExtTreeMap.getElem?_filter']
      cases maps.permissions[key]? with
      | none => simp
      | some permission => simp [Action.revokes, Option.filter]
  | @userAdded user id level document now read found fresh =>
      -- Whether an upsert makes a permission depends on the rows before it.
      have unheld := (intact.holds_eq _).trans (Map.contains_eq_false_iff.2 fresh)
      have grants : (Action.upsertUser user id level).granted? maps.contents now () =
          some (.ofUser user id level now) := if_neg (Bool.eq_false_iff.1 unheld)
      rw [Map.getElem?_insert, Event.leaves_made read grants rfl rfl]
      rfl
  | @userChanged user id level document permission now read found held byUser =>
      have holds := (intact.holds_eq _).trans (Map.contains_iff.2 ⟨permission, held⟩)
      have grants : (Action.upsertUser user id level).granted? maps.contents now () = none :=
        if_pos holds
      rw [Map.getElem?_insert, Event.leaves_releveled read grants rfl rfl]
      by_cases named : (⟨.ofUser user, id⟩ : PermissionKey) = key
      · rw [if_pos named, if_pos named, ← named, held]
        rfl
      · rw [if_neg named, if_neg named]
  | @guestChanged guest level record permission now read found held byGuest =>
      -- The record of the guest says which document it is that is reached.
      have reached : (Action.updateGuest guest level).leveled? maps.contents key () =
          if key = ⟨.ofGuest guest, record.documentId⟩ then some level else none := by
        simp only [Action.leveled?, Bool.and_eq_true, decide_eq_true_eq, intact.hosts_iff found]
        cases key
        simp only [PermissionKey.mk.injEq]
      rw [Map.getElem?_insert, Event.leaves_releveled read rfl rfl reached]
      by_cases named : (⟨.ofGuest guest, record.documentId⟩ : PermissionKey) = key
      · rw [if_pos named, if_pos named, ← named, held]
        rfl
      · rw [if_neg named, if_neg named]
  | @permissionDeleted principal id permission held =>
      rw [Event.leaves_revoked (fun _ => rfl) rfl]
      by_cases named : key = ⟨principal, id⟩
      · simp [Action.revokes, named]
      · simp [Action.revokes, named, Map.getElem?_erase_of_ne]
  | guestMade read found fresh unheld =>
      rw [Map.getElem?_insert, Event.leaves_made read rfl rfl rfl]
      rfl
  | brokenOff unread => exact absurd rfl ends
  | documentHalfChanged unread found => exact absurd rfl ends
  | guestHalfChanged unread found held => exact absurd rfl ends

theorem Event.Leads.permission_eq {event : Event} {maps after : MemoryStore}
    (leads : event.Leads maps after) (ends : event.outcome ≠ .aborted) (key : PermissionKey) :
    after.permissions[key]? = event.leaves key maps.permissions[key]? := by
  obtain ⟨Answer, before, moment, operation, outcome⟩ := event
  obtain ⟨intact, found, changes⟩ := leads
  obtain rfl : before = maps.contents := found
  exact changes.permission_eq intact ends key

private theorem MemoryStore.Course.permission_eq {maps after : MemoryStore} {events : List Event}
    (course : maps.Course events after) (ends : ∀ event ∈ events, event.outcome ≠ .aborted)
    (key : PermissionKey) :
    after.permissions[key]? = events.foldl (Event.leaves key) maps.permissions[key]? := by
  induction course with
  | done => rfl
  | next leads rest ih =>
      obtain ⟨first, others⟩ := List.forall_mem_cons.1 ends
      rw [ih others, leads.permission_eq first, List.foldl_cons]

/-! ## The last event that counts -/

/-- The last event that has made a permission or taken it away, and the events since. -/
structure LastSettled (key : PermissionKey) (events : List Event) (settling : Event)
    (since : List Event) : Prop where
  split : ∃ earlier, events = earlier ++ settling :: since
  settles : settling.settles key = true
  quiet : ∀ event ∈ since, event.settles key = false

variable {key : PermissionKey} {events since : List Event} {settling : Event}

private theorem exists_lastSettled (key : PermissionKey) (events : List Event) :
    (∀ event ∈ events, event.settles key = false) ∨
      ∃ settling since, LastSettled key events settling since := by
  induction events with
  | nil => exact .inl fun event member => absurd member List.not_mem_nil
  | cons event later ih =>
      -- If one of the later events counts, the first one does not.
      rcases ih with quiet | ⟨settling, since, last⟩
      · cases settles : event.settles key with
        | true => exact .inr ⟨event, later, ⟨[], rfl⟩, settles, quiet⟩
        | false => exact .inl (List.forall_mem_cons.2 ⟨settles, quiet⟩)
      · obtain ⟨earlier, rfl⟩ := last.split
        exact .inr ⟨settling, since, ⟨event :: earlier, rfl⟩, last.settles, last.quiet⟩

namespace Event

variable {event : Event} {row : Option Permission}

theorem leaves_of_quiet (quiet : event.settles key = false) :
    event.leaves key row = row.map fun row => row.leveled (event.leveled? key) := by
  obtain ⟨grants, keeps⟩ := Bool.or_eq_false_iff.1 quiet
  have ungranted : event.granted? key = none := by simpa using grants
  rw [leaves, ungranted, keeps]
  rfl

private theorem leaves_of_untouched (untouched : event.touches key = false) :
    event.leaves key row = row := by
  obtain ⟨quiet, levels⟩ := Bool.or_eq_false_iff.1 untouched
  have unleveled : event.leveled? key = none := by simpa using levels
  rw [leaves_of_quiet quiet, unleveled]
  exact Option.map_id'

theorem leaves_of_settles (settles : event.settles key = true) :
    event.leaves key row = event.granted? key := by
  cases grants : event.granted? key with
  | some made => rw [leaves, grants]
  | none =>
      have taken : event.revokes key = true := by simpa [Event.settles, grants] using settles
      rw [leaves, grants, taken]
      rfl

theorem getLast?_leveled (key : PermissionKey) (event : Event) (later : List Event) :
    ((event :: later).filterMap (leveled? key)).getLast? =
      (later.filterMap (leveled? key)).getLast?.or (event.leveled? key) := by
  cases sets : event.leveled? key with
  | none => rw [List.filterMap_cons_none sets, Option.or_none]
  | some level =>
      rw [List.filterMap_cons_some sets, List.getLast?_cons]
      cases (later.filterMap (leveled? key)).getLast? <;> rfl

theorem foldl_leaves_of_quiet (quiet : ∀ event ∈ since, event.settles key = false)
    (row : Option Permission) :
    since.foldl (leaves key) row =
      row.map fun row => row.leveled (since.filterMap (leveled? key)).getLast? := by
  induction since generalizing row with
  | nil => exact Option.map_id'.symm
  | cons event later ih =>
      obtain ⟨first, others⟩ := List.forall_mem_cons.1 quiet
      -- What does not settle the permission only changes its level, and the later change counts.
      rw [List.foldl_cons, ih others, leaves_of_quiet first, Option.map_map, getLast?_leveled]
      refine congrArg (row.map ·) (funext fun row => ?_)
      exact row.leveled_leveled _ _

end Event

private theorem LastSettled.foldl_leaves (last : LastSettled key events settling since) :
    events.foldl (Event.leaves key) none = (settling.granted? key).map fun made =>
      made.leveled (since.filterMap (Event.leveled? key)).getLast? := by
  obtain ⟨earlier, rfl⟩ := last.split
  rw [List.foldl_append, List.foldl_cons, Event.leaves_of_settles last.settles,
    Event.foldl_leaves_of_quiet last.quiet]

/-- Something is left by the events if the last that counts has made a permission. -/
private theorem exists_left_iff :
    (∃ permission, events.foldl (Event.leaves key) none = some permission) ↔
      ∃ settling since, LastSettled key events settling since ∧
        (settling.granted? key).isSome = true := by
  constructor
  · intro given
    obtain ⟨permission, stands⟩ := given
    rcases exists_lastSettled key events with quiet | ⟨settling, since, last⟩
    · rw [Event.foldl_leaves_of_quiet quiet] at stands
      cases stands
    · rw [last.foldl_leaves] at stands
      obtain ⟨made, grants, -⟩ := Option.map_eq_some_iff.1 stands
      exact ⟨settling, since, last, Option.isSome_iff_exists.2 ⟨made, grants⟩⟩
  · intro given
    obtain ⟨settling, since, last, grants⟩ := given
    obtain ⟨made, grants⟩ := Option.isSome_iff_exists.1 grants
    rw [last.foldl_leaves, grants]
    exact ⟨_, rfl⟩

private theorem Action.granted?_of_revokes {before : Contents} {now : Timestamp}
    {operation : Operation α} {value : α} (takes : operation.revokes key = true) :
    operation.granted? before now value = none := by
  cases operation with
  | deletePermission principal id => rfl
  | deleteDocument id => rfl
  | _ => cases takes

theorem Event.leaves_of_revokes {event : Event} {row : Option Permission}
    (takes : event.revokes key = true) : event.leaves key row = none := by
  have settles : event.settles key = true := Bool.or_eq_true_iff.2 (.inr takes)
  rw [leaves_of_settles settles, Option.eq_none_iff_forall_ne_some]
  intro made grants
  simp only [granted?, Option.bind_eq_bind, Option.bind_eq_some_iff] at grants
  obtain ⟨value, -, now, -, row, granted, -⟩ := grants
  rw [Action.granted?_of_revokes (Bool.and_eq_true_iff.1 takes).2] at granted
  cases granted

/-- Who has made a permission has also set its level, at the same time. -/
private theorem Action.leveled?_of_granted? {before : Contents} {now : Timestamp}
    {operation : Operation α} {value : α} {made : Permission}
    (grants : operation.granted? before now value = some made) :
    operation.leveled? before made.key value = some made.level ∧ made.createdAt = now ∧
      made.lastModifiedAt = now := by
  cases operation with
  | createDocument creator fields =>
      cases grants
      exact ⟨if_pos rfl, rfl, rfl⟩
  | upsertUser user id level =>
      obtain ⟨-, granted⟩ := Option.ite_none_left_eq_some.1 grants
      cases granted
      exact ⟨if_pos rfl, rfl, rfl⟩
  | createGuest creator id level =>
      cases grants
      exact ⟨if_pos rfl, rfl, rfl⟩
  | _ => cases grants

private theorem Event.granted?_eq_some {event : Event} {made : Permission}
    (grants : event.granted? key = some made) :
    made.key = key ∧ event.moment.clock.now? = some made.createdAt ∧
      event.leveled? key = some (made.level, made.lastModifiedAt) := by
  simp only [granted?, Option.bind_eq_bind, Option.bind_eq_some_iff,
    Option.ite_none_right_eq_some, Option.some.injEq] at grants
  obtain ⟨value, done, now, read, made, granted, rfl, rfl⟩ := grants
  obtain ⟨levels, created, modified⟩ := Action.leveled?_of_granted? granted
  refine ⟨rfl, created ▸ read, ?_⟩
  simp [leveled?, done, read, levels, modified]

/-! ## Permissions of a store -/

/-- What a permission has from the event that made it, and from the last that set its level. -/
structure Permission.ComesFrom (permission : Permission) (key : PermissionKey)
    (settling : Event) (since : List Event) : Prop where
  named : permission.key = key
  made : ∃ made, settling.granted? key = some made ∧
    permission.recipientType = made.recipientType ∧ permission.createdBy = made.createdBy ∧
    permission.createdAt = made.createdAt
  read : settling.moment.clock.now? = some permission.createdAt
  level : ((settling :: since).filterMap (Event.leveled? key)).getLast? =
    some (permission.level, permission.lastModifiedAt)

private theorem Permission.comesFrom_leveled {made : Permission}
    (grants : settling.granted? key = some made) :
    (made.leveled (since.filterMap (Event.leveled? key)).getLast?).ComesFrom key settling
      since := by
  obtain ⟨named, read, levels⟩ := Event.granted?_eq_some grants
  have last := Event.getLast?_leveled key settling since
  rw [levels] at last
  cases later : (since.filterMap (Event.leveled? key)).getLast? with
  | none =>
      rw [later] at last
      exact ⟨named, ⟨made, grants, rfl, rfl, rfl⟩, read, last⟩
  | some level =>
      rw [later] at last
      exact ⟨named, ⟨made, grants, rfl, rfl, rfl⟩, read, last⟩

private theorem MemoryStore.Integrity.filter_held {maps : MemoryStore} (intact : maps.Integrity)
    {permission : Permission} (held : maps.permissions[key]? = some permission) :
    (maps.contents.permissions.filter fun row =>
      row.recipientId = key.recipient && row.documentId = key.document) = [permission] := by
  have named := intact.permission_key _ permission held
  refine filter_eq_singleton intact.consistent.permissions_nodup (Map.mem_values.2 ⟨_, held⟩) ?_ ?_
  · have recipient := congrArg PermissionKey.recipient named
    have document := congrArg PermissionKey.document named
    exact Bool.and_eq_true_iff.2 ⟨decide_eq_true recipient, decide_eq_true document⟩
  · intro other member kept
    obtain ⟨recipient, document⟩ := Bool.and_eq_true_iff.1 kept
    rw [named, Permission.key, of_decide_eq_true recipient, of_decide_eq_true document]

/-- The level that an event has given to a user on a document, if it has. -/
def Action.upserted? (user : UserId) (id : DocumentId) : Operation α → Option PermissionLevel
  | .upsertUser other on level => if other = user ∧ on = id then some level else none
  | _ => none

def Event.upserted? (user : UserId) (id : DocumentId) (event : Event) : Option PermissionLevel := do
  let _ ← event.outcome.value?
  event.operation.upserted? user id

private theorem MemoryStore.Change.level_of_upserted {maps after : MemoryStore} {moment : Moment}
    {operation : Operation α} {value : α} {user : UserId} {id : DocumentId}
    {level : PermissionLevel} (changes : maps.Change moment operation (.ok value) after)
    (upserts : operation.upserted? user id = some level) :
    after.permissions[(⟨.ofUser user, id⟩ : PermissionKey)]?.map Permission.level = some level := by
  cases changes with
  | answered reads =>
      cases operation with
      | upsertUser other on level => cases reads
      | _ => cases upserts
  | userAdded read found fresh =>
      obtain ⟨⟨rfl, rfl⟩, same⟩ := Option.ite_none_right_eq_some.1 upserts
      cases same
      rw [Std.ExtTreeMap.getElem?_insert_self]
      rfl
  | userChanged read found held byUser =>
      obtain ⟨⟨rfl, rfl⟩, same⟩ := Option.ite_none_right_eq_some.1 upserts
      cases same
      rw [Std.ExtTreeMap.getElem?_insert_self]
      rfl
  | _ => cases upserts

private theorem Event.Leads.level_of_upserted {event : Event} {maps after : MemoryStore}
    (leads : event.Leads maps after) {user : UserId} {id : DocumentId} {level : PermissionLevel}
    (upserts : event.upserted? user id = some level) :
    after.permissions[(⟨.ofUser user, id⟩ : PermissionKey)]?.map Permission.level = some level := by
  obtain ⟨Answer, before, moment, operation, outcome⟩ := event
  obtain ⟨-, -, changes⟩ := leads
  cases outcome with
  | ok value => exact changes.level_of_upserted upserts
  | error failure => cases upserts
  | aborted => cases upserts

private theorem MemoryStore.Course.level_of_upserts {maps after : MemoryStore}
    {earlier recent : List Event} (course : maps.Course (earlier ++ recent) after)
    (ends : ∀ event ∈ earlier ++ recent, event.outcome ≠ .aborted)
    {user : UserId} {id : DocumentId} {level : PermissionLevel}
    (upserts : ∀ event ∈ recent,
      event.upserted? user id ≠ none ∨ event.touches ⟨.ofUser user, id⟩ = false)
    (last : (recent.filterMap (Event.upserted? user id)).getLast? = some level) :
    after.permissions[(⟨.ofUser user, id⟩ : PermissionKey)]?.map Permission.level = some level := by
  -- The events are cut at the last one that gives the user a level.
  obtain ⟨levels, listed⟩ := List.getLast?_eq_some_iff.1 last
  obtain ⟨front, back, rfl, -, final⟩ := List.filterMap_eq_append_iff.1 listed
  obtain ⟨others, upsert, since, rfl, -, upserted, none⟩ := List.filterMap_eq_cons_iff.1 final
  rw [List.filterMap_eq_nil_iff] at none
  have recent (event : Event) (member : event ∈ since) :
      event ∈ front ++ (others ++ upsert :: since) :=
    List.mem_append_right front (List.mem_append_right others (List.mem_cons_of_mem upsert member))
  have untouched (event : Event) (member : event ∈ since) :
      event.touches ⟨.ofUser user, id⟩ = false :=
    (upserts event (recent event member)).resolve_left fun more => more (none event member)
  rw [← List.append_assoc, ← List.append_assoc] at course
  refine course.since_event (fun maps =>
    maps.permissions[(⟨.ofUser user, id⟩ : PermissionKey)]?.map Permission.level = some level)
    (fun leads => leads.level_of_upserted upserted) ?_
  intro event member maps after leads held
  have first := ends event (List.mem_append_right earlier (recent event member))
  rw [leads.permission_eq first, Event.leaves_of_untouched (untouched event member)]
  exact held

/-- A principal holds a permission on a document if and only if the last event that has made or
taken away one has made it. The permission is for whom, by whom and from when that event says; its
level and the time of its last change are from the last event since then that has set a level. A
user who is given levels any number of times has one permission, with the last of them. All that
holds unless the lock has been poisoned, as it is not while the clock can be read; then looking
for a permission says so. -/
theorem permission_is_its_history {kind : StoreKind} {store : kind.State}
    (new : InspectedStore.isNew store) (history : List Asked) :
    let after := Store.after store history
    ((∀ asked ∈ history, asked.moment.isReadable = true) → ¬ kind.Broken after) ∧
      (kind.Broken after → ∀ (key : PermissionKey) (moment : Moment),
        (Store.step after moment (.getPermission key.document key.recipient)).1 =
          .error (.repository "get permission" .poisoned)) ∧
      ∃ events, Store.events store history = .ok events ∧
        (∀ (key : PermissionKey) (moment : Moment),
          let answer := (Store.step after moment (.getPermission key.document key.recipient)).1
          (¬ kind.Broken after →
              ((∃ permission, answer = .ok permission) ↔
                ∃ settling since, LastSettled key events settling since ∧
                  (settling.granted? key).isSome = true)) ∧
            ∀ permission settling since, answer = .ok permission →
              LastSettled key events settling since → permission.ComesFrom key settling since) ∧
        (¬ kind.Broken after →
          ∀ (user : UserId) (id : DocumentId) (level : PermissionLevel) (recent : List Event),
            recent <:+ events →
            (∀ event ∈ recent,
              event.upserted? user id ≠ none ∨ event.touches ⟨.ofUser user, id⟩ = false) →
            (recent.filterMap (Event.upserted? user id)).getLast? = some level →
            ∃ contents permission, InspectedStore.contents after = .ok contents ∧
              (contents.permissions.filter fun row =>
                row.recipientId = .ofUser user && row.documentId = id) = [permission] ∧
              permission.level = level) := by
  intro after
  obtain ⟨events, maps, recorded, course, models⟩ := (StoreKind.models_new new).course history
  have ended (works : ¬ kind.Broken after) : ∀ event ∈ events, event.outcome ≠ .aborted :=
    (course.ends_of_live (models.works_iff.1 works)).2
  have looked (works : ¬ kind.Broken after) (key : PermissionKey) (moment : Moment)
      (permission : Permission) :
      (Store.step after moment (.getPermission key.document key.recipient)).1 = .ok permission ↔
        events.foldl (Event.leaves key) none = some permission := by
    rw [(models.getPermission (models.works_iff.1 works) moment key).eq_ok_iff,
      course.permission_eq (ended works)]
    rfl
  refine ⟨StoreKind.works_of_readable new, ?_, events, recorded, ?_, ?_⟩
  · intro broken key moment
    exact congrArg Prod.fst (broken.refused rfl moment)
  · intro key moment answer
    refine ⟨?_, ?_⟩
    · intro works
      simp only [answer, looked works]
      exact exists_left_iff
    · intro permission settling since answered last
      -- What is answered is answered by a store that works.
      have works : ¬ kind.Broken after := fun broken => broken.ne_ok rfl moment permission answered
      have stands := (looked works key moment permission).1 answered
      rw [last.foldl_leaves] at stands
      obtain ⟨made, grants, rfl⟩ := Option.map_eq_some_iff.1 stands
      exact Permission.comesFrom_leveled grants
  · intro works user id level recent suffix upserts last
    obtain ⟨earlier, rfl⟩ := suffix
    obtain ⟨permission, held, leveled⟩ :=
      Option.map_eq_some_iff.1 (course.level_of_upserts (ended works) upserts last)
    exact ⟨maps.contents, permission, models.contents_eq, models.intact.filter_held held, leveled⟩

/-- The editor of the short history becomes a viewer: when it came and when it changed are two
times. -/
theorem permission_of_demoted_editor :
    let history := shortHistory ++
      [⟨Unit, .ofNumbers 5 5, .upsertUser ⟨.ofNat 8⟩ ⟨.ofNat 1⟩ .viewer⟩]
    let key : PermissionKey := ⟨.ofUser ⟨.ofNat 8⟩, ⟨.ofNat 1⟩⟩
    let permission : Permission := ⟨⟨.ofNat 1⟩, ⟨.ofNat 8⟩, .user, .viewer, ⟨.ofNat 8⟩,
      ⟨3, 0, by decide, by decide⟩, ⟨5, 0, by decide, by decide⟩⟩
    ∃ events settling since, Store.events MemoryStore.empty history = .ok events ∧
      LastSettled key events settling since ∧ permission.ComesFrom key settling since := by
  intro history key permission
  obtain ⟨works, -, events, recorded, answers, -⟩ :=
    @permission_is_its_history .memory MemoryStore.empty rfl history
  have answered : ((Store.after MemoryStore.empty history).step (.ofNumbers 6 6)
      (.getPermission key.document key.recipient)).1 = .ok permission := by decide +kernel
  obtain ⟨holds, comesFrom⟩ := answers key (.ofNumbers 6 6)
  obtain ⟨settling, since, last, -⟩ := (holds (works (by decide))).1 ⟨permission, answered⟩
  exact ⟨events, settling, since, recorded, last, comesFrom permission settling since answered last⟩

/-- The clock is never negative, but its last reading lies past the calendar. The owner of the
document is not told then, though no permission has been taken away. -/
theorem owner_not_told_past_calendar :
    let history : List Asked := [
      ⟨DocumentId, .ofNumbers 8210266876799999999 1, .createDocument ⟨.ofNat 7⟩ {}⟩,
      ⟨DocumentId, .ofNumbers 8210266876800000000 2, .createDocument ⟨.ofNat 7⟩ {}⟩]
    let key : PermissionKey := ⟨.ofUser ⟨.ofNat 7⟩, ⟨.ofNat 1⟩⟩
    (∀ asked ∈ history, 0 ≤ asked.moment.clock.micros) ∧
      ∃ events settling since, Store.events MemoryStore.empty history = .ok events ∧
        LastSettled key events settling since ∧ (settling.granted? key).isSome = true ∧
        ((Store.after MemoryStore.empty history).step (.ofNumbers 8210266876800000001 3)
          (.getPermission key.document key.recipient)).1 =
            .error (.repository "get permission" .poisoned) := by
  intro history key
  refine ⟨by decide, ?_⟩
  obtain ⟨events, -, recorded, -⟩ :=
    (@StoreKind.models_new .memory MemoryStore.empty rfl).course history
  have shows : (Store.events MemoryStore.empty history).toOption.map (List.map fun event =>
      ((event.granted? key).isSome, event.settles key)) = some [(true, true), (false, false)] := by
    decide +kernel
  have read : Store.events MemoryStore.empty history = .ok events := recorded
  rw [read] at shows
  obtain ⟨making, rest, rfl, makes, shows⟩ := List.map_eq_cons_iff.1 (Option.some.inj shows)
  obtain ⟨breaking, rest, rfl, breaks, shows⟩ := List.map_eq_cons_iff.1 shows
  obtain rfl := List.map_eq_nil_iff.1 shows
  obtain ⟨grants, settles⟩ := Prod.mk.inj makes
  refine ⟨_, making, [breaking], recorded, ⟨⟨[], rfl⟩, settles, ?_⟩, grants, by decide +kernel⟩
  intro event member
  rw [List.mem_singleton.1 member]
  exact (Prod.mk.inj breaks).2

end DocAccess
