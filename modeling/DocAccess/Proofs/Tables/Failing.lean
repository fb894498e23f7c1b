import DocAccess.Proofs.Provenance

/-!
# When the tables refuse

Whether an operation on tables fails is decided by constraints, by the number of changed
rows and by what can be read back. Seen from the rows, each operation fails in the cases
that it is meant to fail in, and in no others.
-/

set_option autoImplicit false

namespace DocAccess

variable {α : Type}

namespace Contents

def hasDocument (rows : Contents) (id : DocumentId) : Bool :=
  rows.documents.any fun document => document.id = id

def hasGuest (rows : Contents) (guest : GuestId) : Bool :=
  rows.guests.any fun record => record.id = guest

/-- Whether a principal holds a permission on a document as a recipient of a type. -/
def holdsAs (rows : Contents) (key : PermissionKey) (type : RecipientType) : Bool :=
  rows.permissions.any fun row => row.key = key && row.recipientType = type

/-- Whether a guest has a record, and a guest's permission on the document that it names. -/
def admits (rows : Contents) (guest : GuestId) : Bool :=
  rows.guests.any fun record =>
    record.id = guest && rows.holdsAs ⟨.ofGuest guest, record.documentId⟩ .guest

/-- Whether an identifier cannot be given to a guest on a document. -/
def isTaken (rows : Contents) (guest : GuestId) (id : DocumentId) : Bool :=
  rows.hasGuest guest || rows.holds ⟨.ofGuest guest, id⟩

end Contents

/-- Whether a listing names no level or leaves no room for a row. -/
def Listing.isVoid (listing : Listing) : Bool :=
  listing.levels.isEmpty || listing.pageSize = 0

/-- The kinds of failures that an operation on tables can end in, each with the rows and
arguments that lead to it. -/
def Action.failsWith (rows : Contents) (drawn : Uuid) : Operation α → ErrorKind → Bool
  | .createDocument _ _, .repository => rows.hasDocument ⟨drawn⟩
  | .getDocument id, .notFound => !rows.hasDocument id
  | .updateDocument id fields, .notFound => !fields.isEmpty && !rows.hasDocument id
  | .deleteDocument id, .notFound => !rows.hasDocument id
  | .upsertUser _ id _, .notFound => !rows.hasDocument id
  | .upsertUser user id _, .uniqueConflict => rows.holdsAs ⟨.ofUser user, id⟩ .guest
  | .updateGuest guest _, .notFound => !rows.admits guest
  | .getPermission id principal, .notFound => !rows.holds ⟨principal, id⟩
  | .deletePermission principal id, .notFound => !rows.holds ⟨principal, id⟩
  | .listPermissions _ listing, .invalidInput => listing.isVoid
  | .listPermissions id listing, .notFound => !listing.isVoid && !rows.hasDocument id
  | .listDocuments _ listing, .invalidInput => listing.isVoid
  | .createGuest _ id _, .uniqueConflict => rows.isTaken ⟨drawn⟩ id
  | .createGuest _ id _, .notFound => !rows.isTaken ⟨drawn⟩ id && !rows.hasDocument id
  | .getGuest guest, .notFound => !rows.hasGuest guest
  | _, _ => false

/-! ## Rows and maps -/

namespace MemoryStore.Integrity

variable {maps : MemoryStore}

private theorem hasDocument_eq (intact : maps.Integrity) (id : DocumentId) :
    maps.contents.hasDocument id = maps.documents.contains id :=
  Map.any_values intact.document_id id

theorem hasGuest_eq (intact : maps.Integrity) (guest : GuestId) :
    maps.contents.hasGuest guest = maps.guests.contains guest :=
  Map.any_values intact.guest_id guest

private theorem isTaken_eq (intact : maps.Integrity) (guest : GuestId) (id : DocumentId) :
    maps.contents.isTaken guest id = (maps.guests.contains guest ||
      maps.permissions.contains (⟨.ofGuest guest, id⟩ : PermissionKey)) := by
  rw [Contents.isTaken, intact.hasGuest_eq, intact.holds_eq]

theorem holdsAs_iff (intact : maps.Integrity) {key : PermissionKey} {type : RecipientType} :
    maps.contents.holdsAs key type = true ↔
      ∃ permission, maps.permissions[key]? = some permission ∧ permission.recipientType = type := by
  simp only [Contents.holdsAs, List.any_eq_true, Bool.and_eq_true, decide_eq_true_eq]
  constructor
  · intro given
    obtain ⟨permission, member, rfl, typed⟩ := given
    obtain ⟨name, held⟩ := Map.mem_values.1 member
    rw [intact.permission_key name permission held]
    exact ⟨permission, held, typed⟩
  · intro given
    obtain ⟨permission, held, typed⟩ := given
    exact ⟨permission, Map.mem_values.2 ⟨key, held⟩, intact.permission_key key permission held,
      typed⟩

private theorem admits_eq (intact : maps.Integrity) (guest : GuestId) :
    maps.contents.admits guest = (maps.guestPermission? guest).isSome := by
  rw [Bool.eq_iff_iff, Option.isSome_iff_exists]
  simp only [Contents.admits, List.any_eq_true, Bool.and_eq_true, decide_eq_true_eq,
    intact.holdsAs_iff]
  constructor
  · intro given
    obtain ⟨record, member, rfl, permission, held, byGuest⟩ := given
    obtain ⟨name, known⟩ := Map.mem_values.1 member
    rw [← intact.guest_id name record known] at known
    exact ⟨(_, permission), guestPermission?_eq_some_iff.2 ⟨record, known, rfl, held, byGuest⟩⟩
  · intro given
    obtain ⟨⟨key, permission⟩, found⟩ := given
    obtain ⟨record, known, rfl, held, byGuest⟩ := guestPermission?_eq_some_iff.1 found
    exact ⟨record, Map.mem_values.2 ⟨guest, known⟩, intact.guest_id guest record known,
      permission, held, byGuest⟩

end MemoryStore.Integrity

private theorem Listing.validate_of_isVoid {listing : Listing} (void : listing.isVoid = true) :
    ∃ reason, listing.validate = .error (.invalidInput reason) := by
  rcases listing.validate_cases with ⟨levels, room, -⟩ | ⟨-, refused⟩
  · simp only [isVoid, Bool.or_eq_true, List.isEmpty_iff, decide_eq_true_eq] at void
    rcases void with none | none
    · exact absurd none levels
    · exact absurd none (Nat.ne_of_gt room)
  · exact refused

private theorem Listing.validate_of_not_isVoid {listing : Listing}
    (filled : listing.isVoid = false) : ∃ checked, listing.validate = .ok checked := by
  rcases listing.validate_cases with ⟨-, -, accepted⟩ | ⟨faulty, -⟩
  · exact accepted
  · simp only [isVoid, Bool.or_eq_false_iff, List.isEmpty_eq_false_iff, decide_eq_false_iff_not]
      at filled
    rcases faulty with none | none
    · exact absurd none filled.1
    · exact absurd none filled.2

/-! ## Reasons -/

namespace TableStore

variable {maps : MemoryStore}

/-- The reasons to refuse are those that the rows show. -/
private theorem failsWith_eq (intact : maps.Integrity) (drawn : Uuid) (operation : Operation α)
    (kind : ErrorKind) :
    operation.failsWith maps.contents drawn kind =
      ((refusal? maps drawn operation).map StoreError.kind == some kind) := by
  have documents := intact.hasDocument_eq
  have holds := intact.holds_eq
  cases operation with
  | createDocument creator fields =>
      cases kind <;> simp only [Action.failsWith, refusal?, documents] <;>
        cases maps.documents.contains (⟨drawn⟩ : DocumentId) <;> rfl
  | getDocument id =>
      cases kind <;> simp only [Action.failsWith, refusal?, documents] <;>
        cases maps.documents.contains id <;> rfl
  | updateDocument id fields =>
      cases kind <;> simp only [Action.failsWith, refusal?, documents] <;>
        cases fields.isEmpty <;> cases maps.documents.contains id <;> rfl
  | deleteDocument id =>
      cases kind <;> simp only [Action.failsWith, refusal?, documents] <;>
        cases maps.documents.contains id <;> rfl
  | upsertUser user id level =>
      have heldBy : maps.contents.holdsAs ⟨.ofUser user, id⟩ .guest =
          maps.permissions[(⟨.ofUser user, id⟩ : PermissionKey)]?.any fun permission =>
            permission.recipientType = .guest := by
        rw [Bool.eq_iff_iff, intact.holdsAs_iff, Option.any_eq_true]
        simp only [decide_eq_true_eq]
      cases held : maps.permissions[(⟨.ofUser user, id⟩ : PermissionKey)]? with
      | none =>
          rw [held] at heldBy
          cases kind <;> simp only [Action.failsWith, refusal?, documents, heldBy, held] <;>
            cases maps.documents.contains id <;> rfl
      | some permission =>
          obtain ⟨document, found⟩ := intact.permission_document _ permission held
          have present : maps.documents.contains id = true := Map.contains_iff.2 ⟨document, found⟩
          rw [held, Option.any_some] at heldBy
          cases type : permission.recipientType <;> rw [type] at heldBy <;> cases kind <;>
            simp only [Action.failsWith, refusal?, documents, heldBy, held, Option.bind_some, type,
              present] <;> rfl
  | updateGuest guest level =>
      cases kind <;> simp only [Action.failsWith, refusal?, intact.admits_eq] <;>
        cases (maps.guestPermission? guest).isSome <;> rfl
  | getPermission id principal =>
      cases kind <;> simp only [Action.failsWith, refusal?, holds] <;>
        cases maps.permissions.contains (⟨principal, id⟩ : PermissionKey) <;> rfl
  | deletePermission principal id =>
      cases kind <;> simp only [Action.failsWith, refusal?, holds] <;>
        cases maps.permissions.contains (⟨principal, id⟩ : PermissionKey) <;> rfl
  | listPermissions id listing =>
      cases void : listing.isVoid with
      | true =>
          obtain ⟨reason, refused⟩ := Listing.validate_of_isVoid void
          cases kind <;> simp only [Action.failsWith, refusal?, void, refused] <;> rfl
      | false =>
          obtain ⟨checked, accepted⟩ := Listing.validate_of_not_isVoid void
          cases kind <;> simp only [Action.failsWith, refusal?, void, accepted, documents] <;>
            cases maps.documents.contains id <;> rfl
  | listDocuments principal listing =>
      cases void : listing.isVoid with
      | true =>
          obtain ⟨reason, refused⟩ := Listing.validate_of_isVoid void
          cases kind <;> simp only [Action.failsWith, refusal?, void, refused] <;> rfl
      | false =>
          obtain ⟨checked, accepted⟩ := Listing.validate_of_not_isVoid void
          cases kind <;> simp only [Action.failsWith, refusal?, void, accepted] <;> rfl
  | createGuest creator id level =>
      cases kind <;> simp only [Action.failsWith, refusal?, documents, intact.isTaken_eq] <;>
        cases maps.guests.contains (⟨drawn⟩ : GuestId) ||
          maps.permissions.contains (⟨.ofGuest ⟨drawn⟩, id⟩ : PermissionKey) <;>
        cases maps.documents.contains id <;> rfl
  | getGuest guest =>
      cases kind <;> simp only [Action.failsWith, refusal?, intact.hasGuest_eq] <;>
        cases maps.guests.contains guest <;> rfl

end TableStore

/-- In every state that tables come to all rows can be read back, and an operation fails in a way
if and only if the rows and its arguments ask for this failure. It gives a value if and only if
they ask for none. Only a document of a taken identifier makes the store itself fail. -/
theorem table_failures_exact {clock : Clock} {store : TableStore}
    (opened : TableStore.open clock .empty = (.ok (), store)) (history : List Asked)
    (moment : Moment) (operation : Operation α)
    (timely : operation.isClocked = true → moment.isReadable = true) :
    let reached := Store.after store history
    let outcome := (reached.step moment operation).1
    ∃ rows, reached.contents = .ok rows ∧
      (∃ after, (reached.step moment operation).2.contents = .ok after) ∧
      (∀ kind, outcome.errorKind? = some kind ↔
        operation.failsWith rows moment.drawn kind = true) ∧
      ((∃ value, outcome = .ok value) ↔
        ∀ kind, operation.failsWith rows moment.drawn kind = false) ∧
      (outcome.errorKind? = some .repository →
        operation.name = "create document" ∧ rows.hasDocument ⟨moment.drawn⟩ = true) := by
  intro reached outcome
  obtain ⟨part, -, represents⟩ := (TableStore.represents_open opened).exists_after history
  generalize Store.after MemoryStore.empty part = maps at represents
  have represents' := (represents.step operation timely).1
  have heeds := represents.heeds operation timely
  have exact := TableStore.failsWith_eq represents.intact moment.drawn operation
  have fails (kind : ErrorKind) : outcome.errorKind? = some kind ↔
      operation.failsWith maps.contents moment.drawn kind = true := by
    rw [exact, heeds.errorKind?_eq, beq_iff_eq]
  refine ⟨maps.contents, represents.contents_eq, ⟨_, represents'.contents_eq⟩, fails, ?_, ?_⟩
  · rw [heeds.exists_ok_iff]
    simp only [exact, beq_eq_false_iff_ne]
    rw [← Option.eq_none_iff_forall_ne_some, Option.map_eq_none_iff]
  · intro failed
    have asked := (fails .repository).1 failed
    cases operation with
    | createDocument creator fields => exact ⟨rfl, asked⟩
    | _ => cases asked

/-- After a short history, a level for a user whose identifier a guest has. -/
theorem guest_not_overwritten_by_user :
    let store : TableStore := ⟨(TableStore.newTables default).database, false⟩
    let reached := Store.after store shortHistory
    let operation : Operation Unit := .upsertUser ⟨.ofNat 2⟩ ⟨.ofNat 1⟩ .owner
    TableStore.open ⟨0, 0⟩ .empty = (.ok (), store) ∧
      (Moment.ofNumbers 4 4).isReadable = true ∧
      ∃ rows, reached.contents = .ok rows ∧
        (reached.step (.ofNumbers 4 4) operation).1.errorKind? = some .uniqueConflict := by
  intro store reached operation
  have opened : TableStore.open ⟨0, 0⟩ .empty = (.ok (), store) := TableStore.open_empty rfl
  obtain ⟨rows, read, -, fails, -⟩ := table_failures_exact opened shortHistory (.ofNumbers 4 4)
    operation fun _ => by decide
  have asked : reached.contents.toOption.map (fun rows =>
      operation.failsWith rows (.ofNat 4) .uniqueConflict) = some true := by decide +kernel
  rw [show reached.contents = .ok rows from read] at asked
  exact ⟨opened, by decide, rows, read, (fails .uniqueConflict).2 (Option.some.inj asked)⟩

end DocAccess
