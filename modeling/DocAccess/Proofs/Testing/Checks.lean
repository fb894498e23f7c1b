import DocAccess.Proofs.Testing.Fixtures
import DocAccess.Testing.Conformance

/-!
# Checks on a session under way

Each check is followed call by call, with the maps that the store has come to.
-/

set_option autoImplicit false

namespace DocAccess.Testing.Session.Underway

open MemoryStore

variable {kind : StoreKind} {session : Session kind.State} {gap : Int}

theorem creatorIsOwner (underway : session.Underway gap empty [] 2 3) :
    (Conformance.creatorIsOwner : Run kind.State Unit).Yields session fun _ _ => True := by
  refine underway.newFixture.bind ?_
  rintro ⟨owner⟩ session ⟨-, underway⟩
  refine (underway.createDocument List.mem_cons_self _).expect.bind ?_
  rintro id session ⟨-, now, maps, -, made, underway⟩
  have held : maps.permissions[(⟨.ofUser owner, id⟩ : PermissionKey)]? =
      some (.ofOwner owner id now) := by
    simp [made]
  have found : maps.documents[id]? = some (.ofFields id (.named "owned") now) := by
    simp [made]
  refine (underway.getPermission held).expect.bind ?_
  rintro permission session ⟨rfl, underway⟩
  refine Run.yields_ensure_bind (decide_eq_true rfl) ?_
  refine Run.yields_ensure_bind (decide_eq_true rfl) ?_
  refine Run.yields_ensure_bind (decide_eq_true rfl) ?_
  refine (underway.getDocument found).expect.bind ?_
  rintro document session ⟨rfl, -⟩
  refine Run.yields_ensure_bind (decide_eq_true rfl) ?_
  refine Run.yields_ensure_bind (decide_eq_true rfl) ?_
  exact Run.yields_ensure (decide_eq_true rfl) trivial

theorem updateOverwritesPresentFields (underway : session.Underway gap empty [] 3 5)
    (forward : 0 ≤ gap) :
    (Conformance.updateOverwritesPresentFields : Run kind.State Unit).Yields session
      fun _ _ => True := by
  refine underway.newFixture.bind ?_
  rintro ⟨owner⟩ session ⟨-, underway⟩
  refine (underway.createDocument List.mem_cons_self _).expect.bind ?_
  rintro id session ⟨-, now, maps, -, made, underway⟩
  have found : maps.documents[id]? =
      some (.ofFields id ((DocumentFields.named "draft").withDescription "first") now) := by
    simp [made]
  refine (underway.getDocument found).expect.bind ?_
  rintro before session ⟨rfl, underway⟩
  refine (underway.updateDocument found rfl).expect.bind ?_
  rintro - session ⟨later, maps', past, changed, underway⟩
  have notBefore : later.before now = false := by
    have := past now (.inl ⟨_, Map.mem_values.2 ⟨_, found⟩, .createdAt, rfl⟩)
    rw [Bool.eq_false_iff, ne_eq, Timestamp.before_iff]
    omega
  have found' : maps'.documents[id]? = some { Document.withFields
      (.ofFields id ((DocumentFields.named "draft").withDescription "first") now)
      { description := some "second" } with lastModifiedAt := later } := by
    rw [changed]
    exact document_putDocument_self _ _
  refine (underway.getDocument found').expect.bind ?_
  rintro after session ⟨rfl, underway⟩
  refine Run.yields_ensure_bind (decide_eq_true rfl) ?_
  refine Run.yields_ensure_bind (decide_eq_true rfl) ?_
  refine Run.yields_ensure_bind (congrArg (!·) notBefore) ?_
  refine Run.yields_ensure_bind (decide_eq_true rfl) ?_
  refine underway.draws.bind ?_
  rintro missing session ⟨new, onward⟩
  have absent := underway.names.document_absent ⟨missing⟩ new
  exact (onward.missing _ absent rfl rfl rfl).expectFailure.mono fun _ _ _ => trivial

theorem upsertOntoGuestConflicts (underway : session.Underway gap empty [] 3 4) :
    (Conformance.upsertOntoGuestConflicts : Run kind.State Unit).Yields session
      fun _ _ => True := by
  refine underway.newFixture.bind ?_
  rintro ⟨owner⟩ session ⟨-, underway⟩
  refine (underway.createDocument List.mem_cons_self _).expect.bind ?_
  rintro id session ⟨-, now, maps, -, made, underway⟩
  have found : maps.documents[id]? = some (.ofFields id (.named "guarded") now) := by
    simp [made]
  refine (underway.createGuest found _ _).expect.bind ?_
  rintro guest session ⟨-, later, maps', minted, underway⟩
  have held : maps'.permissions[(⟨.ofGuest guest, id⟩ : PermissionKey)]? =
      some (.ofGuest ⟨guest, id, .ofUser owner, later⟩ .viewer) := by
    simp [minted]
  have found' : maps'.documents[id]? = some (.ofFields id (.named "guarded") now) := by
    simp [minted, found]
  refine (underway.conflicts ⟨guest.uuid⟩ found' held rfl).expectFailure.bind ?_
  rintro - session underway
  refine (underway.getPermission held).expect.bind ?_
  rintro permission session ⟨rfl, -⟩
  refine Run.yields_ensure_bind (decide_eq_true rfl) ?_
  exact Run.yields_ensure (decide_eq_true rfl) trivial

theorem guestLifecycle (underway : session.Underway gap empty [] 5 11) :
    (Conformance.guestLifecycle : Run kind.State Unit).Yields session fun _ _ => True := by
  refine underway.newFixture.bind ?_
  rintro ⟨owner⟩ session ⟨-, underway⟩
  refine (underway.createDocument List.mem_cons_self _).expect.bind ?_
  rintro id session ⟨-, now, maps, -, made, underway⟩
  have found : maps.documents[id]? = some (.ofFields id (.named "linked") now) := by
    simp [made]
  refine (underway.createGuest found _ _).expect.bind ?_
  rintro guest session ⟨-, later, maps', minted, underway⟩
  have known : maps'.guests[guest]? = some ⟨guest, id, .ofUser owner, later⟩ := by
    simp [minted]
  have held : maps'.permissions[(⟨.ofGuest guest, id⟩ : PermissionKey)]? =
      some (.ofGuest ⟨guest, id, .ofUser owner, later⟩ .viewer) := by
    simp [minted]
  refine (underway.getGuest known).expect.bind ?_
  rintro record session ⟨rfl, underway⟩
  refine Run.yields_ensure_bind (decide_eq_true rfl) ?_
  refine Run.yields_ensure_bind (decide_eq_true rfl) ?_
  refine (underway.updateGuest known held rfl _).expect.bind ?_
  rintro - session ⟨last, maps'', raised, underway⟩
  have raised' : maps''.permissions[(⟨.ofGuest guest, id⟩ : PermissionKey)]? = some
      (.withLevel (.ofGuest ⟨guest, id, .ofUser owner, later⟩ .viewer) .editor last) := by
    rw [raised]
    exact permission_putPermission_self _ _
  refine (underway.getPermission raised').expect.bind ?_
  rintro permission session ⟨rfl, underway⟩
  refine Run.yields_ensure_bind (decide_eq_true rfl) ?_
  refine Run.yields_ensure_bind (decide_eq_true rfl) ?_
  refine (underway.deletePermission raised').expect.bind ?_
  rintro - session ⟨bare, taken, underway⟩
  have lost : bare.permissions[(⟨.ofGuest guest, id⟩ : PermissionKey)]? = none := by
    simp [taken]
  have known' : bare.guests[guest]? = some ⟨guest, id, .ofUser owner, later⟩ := by
    simp [taken, raised, known]
  have unheld : bare.guestPermission? guest = none := by
    rw [guestPermission?_of_record known', lost]
    rfl
  refine (underway.unheld lost).1.expectFailure.bind ?_
  rintro - session underway
  refine (underway.getGuest known').expect.bind ?_
  rintro record session ⟨-, underway⟩
  refine (underway.unheldGuest unheld).expectFailure.bind ?_
  rintro - session underway
  refine (underway.unheld lost).2.expectFailure.bind ?_
  rintro - session underway
  refine underway.draws.bind ?_
  rintro missing session ⟨new, onward⟩
  have absent := underway.names.document_absent ⟨missing⟩ new
  exact (onward.createGuest_missing absent _ _).expectFailure.mono fun _ _ _ => trivial

/-- One pass of the loop that gives a user one level after the other. -/
private theorem sharingPass {maps : MemoryStore} {used : List Uuid} {ids calls : Nat}
    {id : DocumentId} {user : UserId} {stored : Document}
    (underway : session.Underway gap maps used ids (calls + 2))
    (found : maps.documents[id]? = some stored) (known : user.uuid ∈ used)
    (byUser : ∀ held, maps.permissions[(⟨.ofUser user, id⟩ : PermissionKey)]? = some held →
      held.recipientType = .user) (level : PermissionLevel) :
    (do
      Run.expect (Run.call (.upsertUser user id level))
      let permission ← Conformance.getPermission id (.ofUser user)
      Run.ensure (permission.level = level)
      Run.ensure (permission.createdBy = .ofUser user) : Run kind.State Unit).Yields session
      fun _ after => ∃ permission, permission.key = ⟨.ofUser user, id⟩ ∧
        permission.recipientType = .user ∧
          after.Underway gap (maps.putPermission permission) used ids calls := by
  refine (underway.upsertUser found known level byUser).expect.bind ?_
  rintro - session ⟨permission, _, named, leveled, type, giver, rfl, underway⟩
  have held : (maps.putPermission permission).permissions[
      (⟨.ofUser user, id⟩ : PermissionKey)]? = some permission := by
    rw [permission_putPermission, if_pos named]
  refine (underway.getPermission held).expect.bind ?_
  rintro _ session ⟨rfl, underway⟩
  refine Run.yields_ensure_bind (decide_eq_true leveled) ?_
  exact Run.yields_ensure (decide_eq_true giver) ⟨_, named, type, underway⟩

theorem upsertIsIdempotent (underway : session.Underway gap empty [] 4 10) :
    (Conformance.upsertIsIdempotent : Run kind.State Unit).Yields session fun _ _ => True := by
  refine underway.newFixture.bind ?_
  rintro ⟨owner⟩ session ⟨-, underway⟩
  refine (underway.createDocument List.mem_cons_self _).expect.bind ?_
  rintro id session ⟨-, now, start, -, made, underway⟩
  have found : start.documents[id]? = some (.ofFields id (.named "shared") now) := by
    simp [made]
  refine underway.draws.bind ?_
  rintro name session ⟨new, onward⟩
  obtain ⟨user, rfl⟩ : ∃ user : UserId, name = user.uuid := ⟨⟨name⟩, rfl⟩
  have unheld := underway.names.permission_absent ⟨.ofUser user, id⟩ new
  have apart : user.uuid ≠ owner.uuid := by
    intro same
    exact new (List.mem_cons_of_mem _ (same ▸ List.mem_cons_self))
  -- The user has a permission of its own once a pass has been made.
  refine (Run.yields_forM (fun left session => ∃ maps,
    maps.documents = start.documents ∧
      (∀ held, maps.permissions[(⟨.ofUser user, id⟩ : PermissionKey)]? = some held →
        held.recipientType = .user) ∧
      (∀ key, key ≠ ⟨.ofUser user, id⟩ → maps.level? key = start.level? key) ∧
      (left.length < 3 → ∃ level, maps.level? ⟨.ofUser user, id⟩ = some level) ∧
      session.Underway gap maps [user.uuid, id.uuid, owner.uuid] 1 (3 + 2 * left.length))
    ⟨start, rfl, fun held looked => ?_, fun _ _ => rfl, fun less => absurd less (by decide),
      onward⟩ ?_).bind ?_
  · cases unheld.symm.trans looked
  · rintro level left session ⟨maps, same, byUser, others, -, underway⟩
    refine (underway.sharingPass (same ▸ found) List.mem_cons_self byUser level).mono ?_
    rintro - session ⟨permission, named, type, underway⟩
    refine ⟨maps.putPermission permission, same, fun held looked => ?_, fun key different => ?_,
      fun _ => ⟨_, by rw [level?_putPermission, if_pos named]⟩, underway⟩
    · rw [permission_putPermission, if_pos named] at looked
      cases looked
      exact type
    · rw [level?_putPermission, named, if_neg (Ne.symm different), others key different]
  rintro - session ⟨maps, same, -, others, shared, underway⟩
  obtain ⟨level, shared⟩ := shared (by decide)
  have given (name : Uuid) : (∃ level ∈ PermissionLevel.all,
      maps.level? ((Scope.document id).keyOf name) = some level) ↔
        name ∈ [user.uuid, owner.uuid] := by
    by_cases own : name = user.uuid
    · subst own
      exact iff_of_true ⟨level, level.mem_all, shared⟩ List.mem_cons_self
    · have elsewhere : (Scope.document id).keyOf name ≠ ⟨.ofUser user, id⟩ := by
        simpa [Scope.keyOf, Id.ofUser] using own
      rw [others _ elsewhere, made, level?_addDocument, level?_empty]
      simp [Scope.keyOf, Id.ofUser, own, eq_comm, PermissionLevel.mem_all]
  refine (underway.drain (.document id) (underway.there (same ▸ found)) (by decide) (by decide)
    (by simpa using apart) given (Nat.ceilDiv_eq_add_pred_div 2 10) (by decide)
    .createdAt).expect.bind ?_
  rintro rows session ⟨perm, -, underway⟩
  have count : rows.countP (fun row => row.recipientId = .ofUser user) = 1 := by
    calc rows.countP (fun row => row.recipientId = .ofUser user)
      _ = (rows.map (Scope.document id).rowId).countP (· = user.uuid) := by
          rw [List.countP_map]
          refine List.countP_congr fun row _ => ?_
          simp only [Function.comp_apply, decide_eq_true_eq, Scope.rowId, Id.ofUser, Id.eq_mk_iff]
          exact decide_eq_true_iff.symm
      _ = [user.uuid, owner.uuid].countP (· = user.uuid) := perm.countP_eq _
      _ = 1 := by simp [apart.symm]
  refine Run.yields_ensure_bind (decide_eq_true ?_) ?_
  · simpa using perm.length_eq
  refine Run.yields_ensure_bind (decide_eq_true count) ?_
  refine underway.draws.bind ?_
  rintro missing session ⟨new, onward⟩
  have absent := underway.names.document_absent ⟨missing⟩ new
  exact (onward.missing _ absent rfl rfl rfl).expectFailure.mono fun _ _ _ => trivial

theorem deleteCascades (underway : session.Underway gap empty [] 5 11) :
    (Conformance.deleteCascades : Run kind.State Unit).Yields session fun _ _ => True := by
  refine underway.newFixture.bind ?_
  rintro ⟨owner⟩ session ⟨-, underway⟩
  refine (underway.createDocument List.mem_cons_self _).expect.bind ?_
  rintro id session ⟨-, now, start, -, made, underway⟩
  have found : start.documents[id]? = some (.ofFields id (.named "doomed") now) := by
    simp [made]
  refine (underway.shareWithUsers ⟨_, found⟩).expect.bind ?_
  rintro users session ⟨length, maps, used, grown, underway⟩
  obtain ⟨stored, found'⟩ := grown.stays id ⟨_, found⟩
  refine (underway.createGuest found' _ _).expect.bind ?_
  rintro guest session ⟨-, later, maps', minted, underway⟩
  have found'' : maps'.documents[id]? = some stored := by
    simp [minted, found']
  have known : maps'.guests[guest]? = some ⟨guest, id, .ofUser owner, later⟩ := by
    simp [minted]
  refine (underway.deleteDocument found'').expect.bind ?_
  rintro - session ⟨bare, deleted, underway⟩
  have absent : bare.documents[id]? = none := by
    simp [deleted]
  have unknown : bare.guests[guest]? = none := by
    rw [deleted]
    exact guest_eraseDocument _ _ _ known rfl
  -- Every permission was on the document.
  have unheld (key : PermissionKey) (level : PermissionLevel) : bare.level? key ≠ some level := by
    intro given
    obtain ⟨permission, held, -⟩ := Option.map_eq_some_iff.1 given
    rw [deleted] at held
    obtain ⟨before, elsewhere⟩ := permission_eraseDocument _ _ _ held
    have none : maps'.level? key = none := by
      rw [minted, level?_addGuest, if_neg, grown.level?_elsewhere elsewhere, made,
        level?_addDocument_elsewhere _ _ _ _ _ elsewhere, level?_empty]
      exact fun same => elsewhere (congrArg PermissionKey.document same).symm
    rw [level?, before] at none
    cases none
  refine (underway.missing _ absent rfl rfl rfl).expectFailure.bind ?_
  rintro - session underway
  refine (underway.beginning .createdAt).bind ?_
  rintro cursor session ⟨rfl, whole, begins⟩
  refine (underway.missing (.listPermissions id ⟨PermissionLevel.all, cursor, 10⟩)
    absent rfl rfl whole).expectFailure.bind ?_
  rintro - session underway
  refine (underway.unknownGuest unknown).expectFailure.bind ?_
  rintro - session underway
  refine (Run.yields_forM (fun left session =>
    session.Underway gap bare (guest.uuid :: used) 0 (1 + left.length)) ?_ ?_).bind ?_
  · rw [show users.length = 2 by simpa using length]
    exact underway
  · intro user left session underway
    have underway : session.Underway gap bare (guest.uuid :: used) 0
        (1 + left.length + (0 + 1)) := underway
    refine (underway.drain (.principal (.ofUser user)) rfl (by decide) (by decide)
      List.nodup_nil ?_ (zero_ceilDiv 10) (by decide) .createdAt).expect.bind ?_
    · intro name
      simp [unheld]
    · rintro rows after ⟨perm, -, underway⟩
      refine Run.yields_ensure ?_ underway
      simpa using perm.eq_nil
  rintro - session underway
  exact (underway.missing _ absent rfl rfl rfl).expectFailure.mono fun _ _ _ => trivial

theorem invalidListingArguments (underway : session.Underway gap empty [] 3 4) :
    (Conformance.invalidListingArguments : Run kind.State Unit).Yields session fun _ _ => True := by
  refine underway.newFixture.bind ?_
  rintro ⟨owner⟩ session ⟨-, underway⟩
  refine (underway.beginning .createdAt).bind ?_
  rintro cursor session ⟨rfl, whole, -⟩
  refine (underway.refused (.principal (.ofUser owner)) (.inl rfl) whole).expectFailure.bind ?_
  rintro - session underway
  refine (underway.refused (.principal (.ofUser owner)) (.inr rfl) whole).expectFailure.bind ?_
  rintro - session underway
  refine underway.draws.bind ?_
  rintro missing session ⟨-, underway⟩
  refine (underway.refused (.document ⟨missing⟩) (.inl rfl) whole).expectFailure.bind ?_
  rintro - session underway
  refine underway.draws.bind ?_
  rintro stranger session ⟨-, underway⟩
  refine (underway.list (.principal ⟨stranger⟩) rfl (by decide) (by decide) cursor).expect.bind ?_
  rintro page session ⟨rfl, -⟩
  have none :
      kind.ahead (.principal ⟨stranger⟩) PermissionLevel.all empty.contents cursor = [] := by
    refine List.eq_nil_iff_forall_not_mem.2 fun row member => ?_
    have listed := (StoreKind.mem_ahead.1 member).1
    have given := (level?_of_listed underway.intact listed).2
    rw [level?_empty] at given
    cases given
  rw [none]
  exact Run.yields_ensure_bind rfl (Run.yields_ensure (decide_eq_true rfl) trivial)

/-- The level of a name on a document that its owner shares with viewers and with editors. -/
def levelAmong (viewers editors : List Uuid) (owner name : Uuid) : Option PermissionLevel :=
  if name ∈ editors then some .editor
  else if name ∈ viewers then some .viewer
  else if name = owner then some .owner else none

private theorem viewer_levelAmong {viewers editors : List Uuid} {owner : Uuid}
    (apart : ∀ name ∈ viewers, name ∉ editors) (name : Uuid) :
    (∃ level ∈ [PermissionLevel.viewer], levelAmong viewers editors owner name = some level) ↔
      name ∈ viewers := by
  unfold levelAmong
  by_cases viewing : name ∈ viewers
  · simp [apart name viewing, viewing]
  · simp only [viewing, if_false, iff_false]
    split_ifs <;> simp

private theorem other_levelAmong {viewers editors : List Uuid} {owner : Uuid}
    (apart : ∀ name ∈ viewers, name ∉ editors) (owning : owner ∉ viewers) (name : Uuid) :
    (∃ level ∈ [PermissionLevel.owner, .editor],
      levelAmong viewers editors owner name = some level) ↔ name ∈ owner :: editors := by
  unfold levelAmong
  rw [List.mem_cons]
  by_cases viewing : name ∈ viewers
  · have other : name ≠ owner := fun same => owning (same ▸ viewing)
    simp [apart name viewing, viewing, other]
  · by_cases editing : name ∈ editors
    · simp [editing]
    · simp only [viewing, editing, if_false, or_false]
      split_ifs with owns <;> simp [owns]

private theorem owner_levelAmong {viewers editors : List Uuid} {owner : Uuid}
    (viewing : owner ∉ viewers)
    (editing : owner ∉ editors) : levelAmong viewers editors owner owner = some .owner := by
  rw [levelAmong, if_neg editing, if_neg viewing, if_pos rfl]

theorem levelFilterApplies (underway : session.Underway gap empty [] 7 12) :
    (Conformance.levelFilterApplies : Run kind.State Unit).Yields session fun _ _ => True := by
  refine underway.newFixture.bind ?_
  rintro ⟨owner⟩ session ⟨-, underway⟩
  refine (underway.createDocument List.mem_cons_self _).expect.bind ?_
  rintro id session ⟨-, now, start, -, made, underway⟩
  have found : start.documents[id]? = some (.ofFields id (.named "mixed") now) := by
    simp [made]
  refine (underway.shareWithUsers ⟨_, found⟩).expect.bind ?_
  rintro viewers session ⟨length, maps, used, first, underway⟩
  refine (underway.shareWithUsers (first.stays id ⟨_, found⟩)).expect.bind ?_
  rintro editors session ⟨length', maps', used', second, underway⟩
  obtain ⟨stored, found'⟩ := second.stays id (first.stays id ⟨_, found⟩)
  have there := underway.there found'
  -- Viewers, editors and the owner have different names.
  have level?_eq (name : Uuid) : maps'.level? ⟨⟨name⟩, id⟩ =
      levelAmong (viewers.map Id.uuid) (editors.map Id.uuid) owner.uuid name := by
    have injective : Function.Injective fun name : Uuid => (⟨⟨name⟩, id⟩ : PermissionKey) := by
      rintro a b ⟨⟩
      rfl
    rw [second.level?_keyOf injective, first.level?_keyOf injective, made, level?_addDocument,
      level?_empty]
    simp [levelAmong, Id.ofUser, eq_comm]
  have apart (name : Uuid) (member : name ∈ viewers.map Id.uuid) : name ∉ editors.map Id.uuid :=
    fun member' => second.unused name member' (first.inUse name member)
  have inUse : owner.uuid ∈ [id.uuid, owner.uuid] := List.mem_cons_of_mem _ List.mem_cons_self
  have owned : owner.uuid ∉ viewers.map Id.uuid ∧ owner.uuid ∉ editors.map Id.uuid :=
    ⟨fun member => first.unused _ member inUse,
      fun member => second.unused _ member (first.kept inUse)⟩
  have viewing (name : Uuid) : (∃ level ∈ [PermissionLevel.viewer],
      maps'.level? ((Scope.document id).keyOf name) = some level) ↔
        name ∈ viewers.map Id.uuid := by
    rw [Scope.keyOf, level?_eq]
    exact viewer_levelAmong apart name
  have underway : session.Underway gap maps' used' 0 (3 + (2 + 1)) := underway
  refine (underway.drain (.document id) there (by decide) (by decide) first.apart viewing ?_
    (by decide) .lastModifiedAt).expect.bind ?_
  · rw [List.length_map, length]
    exact Nat.ceilDiv_eq_add_pred_div 3 2
  rintro rows session ⟨perm, levels, underway⟩
  refine Run.yields_ensure_bind (decide_eq_true ?_) ?_
  · simpa [length] using perm.length_eq
  refine Run.yields_ensure_bind ?_ ?_
  · simpa [Scope.level] using levels
  have others (name : Uuid) : (∃ level ∈ [PermissionLevel.owner, .editor],
      maps'.level? ((Scope.document id).keyOf name) = some level) ↔
        name ∈ owner.uuid :: editors.map Id.uuid := by
    rw [Scope.keyOf, level?_eq]
    exact other_levelAmong apart owned.1 name
  have underway : session.Underway gap maps' used' 0 (1 + (1 + 1)) := underway
  refine (underway.drain (.document id) there (by decide) (by decide)
    (List.nodup_cons.2 ⟨owned.2, second.apart⟩) others ?_ (by decide) .createdAt).expect.bind ?_
  · rw [List.length_cons, List.length_map, length']
    exact Nat.ceilDiv_eq_add_pred_div 3 10
  rintro rows session ⟨perm, -, underway⟩
  refine Run.yields_ensure_bind (decide_eq_true ?_) ?_
  · simpa [length'] using perm.length_eq
  have owning (name : Uuid) : (∃ level ∈ [PermissionLevel.viewer],
      maps'.level? ((Scope.principal (.ofUser owner)).keyOf name) = some level) ↔ name ∈ [] := by
    by_cases this : name = id.uuid
    · have owns := (level?_eq owner.uuid).trans (owner_levelAmong owned.1 owned.2)
      have same : (Scope.principal (.ofUser owner)).keyOf name = ⟨⟨owner.uuid⟩, id⟩ := by
        rw [this]
        rfl
      rw [same, owns]
      simp
    · have elsewhere : ((Scope.principal (.ofUser owner)).keyOf name).document ≠ id :=
        fun same => this (congrArg Id.uuid same)
      rw [second.level?_elsewhere elsewhere, first.level?_elsewhere elsewhere, made,
        level?_addDocument_elsewhere _ _ _ _ _ elsewhere, level?_empty]
      simp
  have underway : session.Underway gap maps' used' 0 (0 + (0 + 1)) := underway
  refine (underway.drain (.principal (.ofUser owner)) rfl (by decide) (by decide) List.nodup_nil
    owning (zero_ceilDiv 10) (by decide) .createdAt).expect.bind ?_
  rintro rows session ⟨perm, -, -⟩
  exact Run.yields_ensure (by simpa using perm.eq_nil) trivial

end DocAccess.Testing.Session.Underway
