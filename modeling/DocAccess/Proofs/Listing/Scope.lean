import DocAccess.Proofs.Consistency
import DocAccess.Proofs.Evolution

/-!
# Rows of a scope

In rows that agree with one another, the rows of a scope are told apart by the identifiers
in their positions. The time in the position of an identifier changes only to the time of
a change.
-/

set_option autoImplicit false

namespace DocAccess

variable {α : Type} {contents : Contents}

namespace Scope

theorem rows_nodup (consistent : contents.Consistent) (scope : Scope α) :
    ((scope.rows contents).map scope.rowId).Nodup := by
  have distinct := List.pairwise_map.1 consistent.permissions_nodup
  cases scope with
  | document id =>
      refine List.pairwise_map.2 ((distinct.filter _).imp_of_mem ?_)
      intro a b first second apart same
      have onFirst := of_decide_eq_true (List.mem_filter.1 first).2
      have onSecond := of_decide_eq_true (List.mem_filter.1 second).2
      exact apart (Permission.key_eq (Id.eq_of_uuid same) (onFirst.trans onSecond.symm))
  | principal id =>
      refine List.pairwise_map.2 (List.pairwise_filterMap.2 (distinct.imp ?_))
      intro a b apart row first row' second same
      rw [Option.ite_none_right_eq_some, Option.map_eq_some_iff] at first second
      obtain ⟨onFirst, document, found, rfl⟩ := first
      obtain ⟨onSecond, document', found', rfl⟩ := second
      have named : document.id = a.documentId := by simpa using List.find?_some found
      have named' : document'.id = b.documentId := by simpa using List.find?_some found'
      have sameDocument : document.id = document'.id := Id.eq_of_uuid same
      exact apart (Permission.key_eq (onFirst.trans onSecond.symm)
        (named.symm.trans (sameDocument.trans named')))

theorem mem_rows_of_listed {scope : Scope α} {levels : List PermissionLevel} {row : α}
    (listed : row ∈ scope.listed levels contents) : row ∈ scope.rows contents :=
  (List.mem_filter.1 listed).1

theorem listed_nodup (consistent : contents.Consistent) (scope : Scope α)
    (levels : List PermissionLevel) (field : SortField) :
    ((scope.listed levels contents).map (scope.orderKey field)).Nodup := by
  have rows := List.pairwise_map.1 (scope.rows_nodup consistent)
  refine List.pairwise_map.2 ((rows.filter _).imp ?_)
  intro a b apart same
  refine apart ?_
  rw [← scope.id_orderKey field a, same, scope.id_orderKey]

/-- Which levels a listing goes through does not depend on how they are listed. -/
theorem listed_congr {levels levels' : List PermissionLevel}
    (same : levels ⊆ levels' ∧ levels' ⊆ levels) (scope : Scope α) (contents : Contents) :
    scope.listed levels contents = scope.listed levels' contents := by
  refine List.filter_congr fun row _ => ?_
  rw [Bool.eq_iff_iff, List.contains_iff_mem, List.contains_iff_mem]
  exact ⟨fun member => same.1 member, fun member => same.2 member⟩

/-! ## Times by identifier -/

/-- Whether a time stands by an identifier, in a position that a row of the scope has or
would have. -/
def Stamped : Scope α → SortField → Contents → Uuid → Timestamp → Prop
  | .document on, field, contents, id, time => ∃ permission ∈ contents.permissions,
      permission.documentId = on ∧ permission.recipientId.uuid = id ∧
        permission.time field = time
  | .principal _, field, contents, id, time => ∃ document ∈ contents.documents,
      document.id.uuid = id ∧ document.time field = time

theorem stamped_of_mem {scope : Scope α} {row : α} (member : row ∈ scope.rows contents)
    (field : SortField) :
    scope.Stamped field contents (scope.rowId row) (scope.orderKey field row).time := by
  cases scope with
  | document id =>
      obtain ⟨stored, onDocument⟩ := List.mem_filter.1 member
      refine ⟨row, stored, of_decide_eq_true onDocument, rfl, ?_⟩
      cases field <;> rfl
  | principal id =>
      obtain ⟨permission, -, read⟩ := List.mem_filterMap.1 member
      rw [Option.ite_none_right_eq_some, Option.map_eq_some_iff] at read
      obtain ⟨-, document, found, rfl⟩ := read
      refine ⟨document, List.mem_of_find?_eq_some found, rfl, ?_⟩
      cases field <;> rfl

namespace Stamped

variable {scope : Scope α} {field : SortField} {id : Uuid} {time other : Timestamp}

theorem hasTime (stamped : scope.Stamped field contents id time) : contents.HasTime time := by
  cases scope with
  | document on =>
      obtain ⟨permission, member, -, -, same⟩ := stamped
      exact .inr (.inl ⟨permission, member, field, same⟩)
  | principal holder =>
      obtain ⟨document, member, -, same⟩ := stamped
      exact .inl ⟨document, member, field, same⟩

theorem unique (consistent : contents.Consistent) (first : scope.Stamped field contents id time)
    (second : scope.Stamped field contents id other) : time = other := by
  cases scope with
  | document on =>
      obtain ⟨a, member, onFirst, named, rfl⟩ := first
      obtain ⟨b, member', onSecond, named', rfl⟩ := second
      have same : a.key = b.key := Permission.key_eq (Id.eq_of_uuid (named.trans named'.symm))
        (onFirst.trans onSecond.symm)
      rw [List.inj_on_of_nodup_map consistent.permissions_nodup member member' same]
  | principal holder =>
      obtain ⟨a, member, named, rfl⟩ := first
      obtain ⟨b, member', named', rfl⟩ := second
      have same : a.id = b.id := Id.eq_of_uuid (named.trans named'.symm)
      rw [List.inj_on_of_nodup_map consistent.documents_nodup member member' same]

/-- A time by an identifier has stood there before or has just been read. -/
private theorem before_or_read {moment : Moment} {before after : Contents}
    (successor : before.Successor moment after)
    (stamped : scope.Stamped field after id time) :
    scope.Stamped field before id time ∨ moment.clock.now? = some time := by
  cases scope with
  | document on =>
      obtain ⟨permission, member, onDocument, rfl, rfl⟩ := stamped
      refine (successor.permissions permission member field).imp_left ?_
      intro given
      obtain ⟨old, present, named, same⟩ := given
      refine ⟨old, present, ?_, ?_, same⟩
      · rw [← onDocument]
        exact congrArg PermissionKey.document named
      · exact congrArg (fun key => key.recipient.uuid) named
  | principal holder =>
      obtain ⟨document, member, rfl, rfl⟩ := stamped
      refine (successor.documents document member field).imp_left ?_
      intro given
      obtain ⟨old, present, named, same⟩ := given
      exact ⟨old, present, congrArg Id.uuid named, same⟩

/-- What is read later only raises the time by an identifier. -/
theorem le_of_evolves {moments : List Moment} {before after : Contents} {bound : Int}
    (evolves : before.Evolves moments after)
    (early : ∀ time, scope.Stamped field before id time → bound ≤ time.nanos)
    (late : ∀ moment ∈ moments, ∀ now, moment.clock.now? = some now → bound ≤ now.nanos)
    (stamped : scope.Stamped field after id time) : bound ≤ time.nanos := by
  induction evolves with
  | refl contents => exact early time stamped
  | @step moment moments before middle after successor evolves ih =>
      refine ih ?_ (fun later member => late later (List.mem_cons_of_mem moment member)) stamped
      intro time stamped
      rcases stamped.before_or_read successor with old | read
      · exact early time old
      · exact late moment List.mem_cons_self time read

end Stamped
end Scope
end DocAccess
