import DocAccess.Proofs.Testing.Calling
import DocAccess.Testing.Fixture

/-!
# Fixtures of a session under way

What the loops of a fixture have made: as many things as asked for, all of them new, and a
permission for each.
-/

set_option autoImplicit false

namespace DocAccess.Testing

variable {kind : StoreKind} {session : Session kind.State} {gap : Int}
  {start maps after : MemoryStore} {used used' names : List Uuid} {ids calls count left : Nat}
  {level : PermissionLevel} {keyOf : Uuid → PermissionKey} {id : Uuid}

/-- Maps that have come about by giving a level under new names, one after the other. -/
structure Grown (start : MemoryStore) (used : List Uuid) (level : PermissionLevel)
    (keyOf : Uuid → PermissionKey) (names : List Uuid) (after : MemoryStore) (used' : List Uuid) :
    Prop where
  apart : names.Nodup
  unused : ∀ name ∈ names, name ∉ used
  inUse : ∀ name ∈ names, name ∈ used'
  kept : used ⊆ used'
  level?_eq (key : PermissionKey) :
    after.level? key = if key ∈ names.map keyOf then some level else start.level? key
  stays (document : DocumentId) :
    (∃ stored : Document, start.documents[document]? = some stored) →
      ∃ stored : Document, after.documents[document]? = some stored

theorem Grown.refl (start : MemoryStore) (used : List Uuid) (level : PermissionLevel)
    (keyOf : Uuid → PermissionKey) : Grown start used level keyOf [] start used where
  apart := List.nodup_nil
  unused _ member := absurd member List.not_mem_nil
  inUse _ member := absurd member List.not_mem_nil
  kept := List.Subset.refl used
  level?_eq key := by simp
  stays _ present := present

theorem Grown.concat (grown : Grown start used level keyOf names maps used') (new : id ∉ used')
    (given : ∀ key, after.level? key = if keyOf id = key then some level else maps.level? key)
    (stays : ∀ document : DocumentId,
      (∃ stored : Document, maps.documents[document]? = some stored) →
        ∃ stored : Document, after.documents[document]? = some stored) :
    Grown start used level keyOf (names ++ [id]) after (id :: used') where
  apart := List.nodup_append.2 ⟨grown.apart, List.nodup_singleton id, by
    intro name member other same
    rw [List.mem_singleton.1 same]
    rintro rfl
    exact new (grown.inUse name member)⟩
  unused := by
    rw [List.forall_mem_append, List.forall_mem_singleton]
    exact ⟨grown.unused, fun member => new (grown.kept member)⟩
  inUse := by
    rw [List.forall_mem_append, List.forall_mem_singleton]
    exact ⟨fun name member => List.mem_cons_of_mem _ (grown.inUse name member),
      List.mem_cons_self⟩
  kept _ member := List.mem_cons_of_mem _ (grown.kept member)
  level?_eq key := by
    rw [given, grown.level?_eq]
    by_cases latest : keyOf id = key
    · simp [latest]
    · simp [latest, Ne.symm latest]
  stays document present := stays document (grown.stays document present)

theorem Grown.level?_keyOf (grown : Grown start used level keyOf names after used')
    (injective : Function.Injective keyOf) (name : Uuid) :
    after.level? (keyOf name) =
      if name ∈ names then some level else start.level? (keyOf name) := by
  rw [grown.level?_eq]
  simp only [List.mem_map_of_injective injective]

theorem Grown.level?_elsewhere {document : DocumentId}
    (grown : Grown start used level (fun name => ⟨⟨name⟩, document⟩) names after used')
    {key : PermissionKey} (elsewhere : key.document ≠ document) :
    after.level? key = start.level? key := by
  rw [grown.level?_eq, if_neg]
  intro member
  obtain ⟨name, -, rfl⟩ := List.mem_map.1 member
  exact elsewhere rfl

/-- A session in the middle of such a loop. -/
def Session.Granting (session : Session kind.State) (gap : Int) (ids calls count : Nat)
    (start : MemoryStore) (used : List Uuid) (level : PermissionLevel)
    (keyOf : Uuid → PermissionKey) (names : List Uuid) (left : Nat) : Prop :=
  names.length + left = count ∧ ∃ maps used', Grown start used level keyOf names maps used' ∧
    session.Underway gap maps used' (ids + left) (calls + left)

theorem Session.Granting.done (granting : session.Granting gap ids calls count start used level
    keyOf names 0) : names.length = count ∧ ∃ maps used',
      Grown start used level keyOf names maps used' ∧ session.Underway gap maps used' ids calls :=
  granting

namespace Session.Underway

variable {fixture : Fixture} {document : DocumentId}

theorem granting (underway : session.Underway gap maps used (ids + count) (calls + count))
    (level : PermissionLevel) (keyOf : Uuid → PermissionKey) :
    session.Granting gap ids calls count maps used level keyOf [] (List.range count).length := by
  rw [List.length_range]
  exact ⟨Nat.zero_add count, maps, used, .refl maps used level keyOf, underway⟩

theorem newFixture (underway : session.Underway gap maps used (ids + 1) calls) :
    (Fixture.new : Run kind.State Fixture).Yields session fun fixture after =>
      fixture.owner.uuid ∉ used ∧
        after.Underway gap maps (fixture.owner.uuid :: used) ids calls :=
  underway.draws.bind fun _ _ holds => Run.yields_pure holds

theorem documents (underway : session.Underway gap maps used (ids + count) (calls + count))
    (known : fixture.owner.uuid ∈ used) :
    (fixture.documents count : Run kind.State (List DocumentId)).Yields session fun made after =>
      made.length = count ∧ ∃ maps' used', Grown maps used .owner
          (fun name => ⟨.ofUser fixture.owner, ⟨name⟩⟩) (made.map Id.uuid) maps' used' ∧
        after.Underway gap maps' used' ids calls := by
  refine (Run.yields_mapM (fun made left session => session.Granting gap ids calls count maps used
    .owner (fun name => ⟨.ofUser fixture.owner, ⟨name⟩⟩) (made.map Id.uuid) left.length)
    [] (underway.granting _ _) ?_).mono fun made _ granted => by simpa using granted.done
  rintro made index left session ⟨length, maps', used', grown, underway⟩
  refine (underway.createDocument (grown.kept known) _).mono ?_
  rintro id after ⟨new, now, written, -, rfl, onward⟩
  refine ⟨?_, _, _, ?_, onward⟩
  · rw [← length]
    simp only [List.map_append, List.length_append, List.length_map, List.length_cons,
      List.length_nil]
    omega
  · rw [List.map_append]
    refine grown.concat new (fun key => ?_) fun other present => ?_
    · exact MemoryStore.level?_addDocument _ _ key _ _
    · rw [MemoryStore.document_addDocument]
      split
      · exact ⟨_, rfl⟩
      · exact present

theorem shareWithUsers (underway : session.Underway gap maps used (ids + count) (calls + count))
    (present : ∃ stored, maps.documents[document]? = some stored) :
    (Fixture.shareWithUsers document count level : Run kind.State (List UserId)).Yields session
      fun users after => users.length = count ∧ ∃ maps' used', Grown maps used level
          (fun name => ⟨⟨name⟩, document⟩) (users.map Id.uuid) maps' used' ∧
        after.Underway gap maps' used' ids calls := by
  refine (Run.yields_mapM (fun users left session => session.Granting gap ids calls count maps used
    level (fun name => ⟨⟨name⟩, document⟩) (users.map Id.uuid) left.length)
    [] (underway.granting _ _) ?_).mono fun users _ granted => by simpa using granted.done
  rintro users index left session ⟨length, maps', used', grown, underway⟩
  refine underway.draws.bind ?_
  rintro id middle ⟨new, onward⟩
  obtain ⟨stored, found⟩ := grown.stays document present
  refine (onward.upsertUser found List.mem_cons_self level fun held looked => ?_).bind ?_
  · have unheld := underway.names.permission_absent ⟨⟨id⟩, document⟩ new
    cases unheld.symm.trans looked
  · rintro - after ⟨permission, written, named, rfl, -, -, rfl, onward⟩
    refine Run.yields_pure ⟨?_, _, _, ?_, onward⟩
    · rw [← length]
      simp only [List.map_append, List.length_append, List.length_map, List.length_cons,
        List.length_nil]
      omega
    · rw [List.map_append]
      refine grown.concat new (fun key => ?_) fun _ present => present
      rw [MemoryStore.level?_putPermission, named]
      rfl

end Session.Underway
end DocAccess.Testing
