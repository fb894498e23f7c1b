import Std.Data.ExtTreeMap

/-!
# Look-ups in ordered maps

What is found in a map after a change, and the list of its values. Keys are compared
lawfully throughout, so that keys that compare as equal are equal.
-/

set_option autoImplicit false

namespace DocAccess.Map

open Std (ExtTreeMap TransOrd LawfulEqOrd)

variable {κ β : Type} [Ord κ] [TransOrd κ] {map : ExtTreeMap κ β} {key other : κ} {value found : β}

theorem contains_eq_false_iff : map.contains key = false ↔ map[key]? = none := by
  rw [ExtTreeMap.contains_eq_isSome_getElem?, Option.isSome_eq_false_iff,
    Option.isNone_iff_eq_none]

theorem contains_iff : map.contains key = true ↔ ∃ value, map[key]? = some value := by
  rw [ExtTreeMap.contains_eq_isSome_getElem?, Option.isSome_iff_exists]

variable [LawfulEqOrd κ]

theorem getElem?_insert [DecidableEq κ] :
    (map.insert key value)[other]? = if key = other then some value else map[other]? := by
  simp only [ExtTreeMap.getElem?_insert, Std.LawfulEqOrd.compare_eq_iff_eq]

theorem getElem?_insert_of_ne (different : other ≠ key) :
    (map.insert key value)[other]? = map[other]? := by
  rw [ExtTreeMap.getElem?_insert, if_neg]
  rw [Std.LawfulEqOrd.compare_eq_iff_eq]
  exact different.symm

theorem getElem?_insert_eq_some (looked : (map.insert key value)[other]? = some found) :
    other = key ∧ found = value ∨ other ≠ key ∧ map[other]? = some found := by
  by_cases same : other = key
  · subst same
    rw [ExtTreeMap.getElem?_insert_self] at looked
    exact .inl ⟨rfl, (Option.some.inj looked).symm⟩
  · rw [getElem?_insert_of_ne same] at looked
    exact .inr ⟨same, looked⟩

theorem getElem?_erase_of_ne (different : other ≠ key) : (map.erase key)[other]? = map[other]? := by
  rw [ExtTreeMap.getElem?_erase, if_neg]
  rw [Std.LawfulEqOrd.compare_eq_iff_eq]
  exact different.symm

theorem getElem?_erase_eq_some :
    (map.erase key)[other]? = some found ↔ other ≠ key ∧ map[other]? = some found := by
  by_cases same : other = key
  · subst same
    simp
  · rw [getElem?_erase_of_ne same]
    exact (and_iff_right same).symm

theorem getElem?_filter_eq_some {keeps : κ → β → Bool} :
    (map.filter keeps)[key]? = some found ↔ map[key]? = some found ∧ keeps key found = true := by
  rw [ExtTreeMap.getElem?_filter', Option.filter_eq_some_iff]

/-! ## Values -/

theorem mem_values : value ∈ map.toList.map (·.2) ↔ ∃ key : κ, map[key]? = some value := by
  rw [List.mem_map]
  constructor
  · intro given
    obtain ⟨⟨key, _⟩, member, rfl⟩ := given
    exact ⟨key, ExtTreeMap.mem_toList_iff_getElem?_eq_some.1 member⟩
  · intro given
    obtain ⟨key, looked⟩ := given
    exact ⟨(key, value), ExtTreeMap.mem_toList_iff_getElem?_eq_some.2 looked, rfl⟩

theorem nodup_keys (map : ExtTreeMap κ β) : (map.toList.map (·.1)).Nodup := by
  refine List.pairwise_map.2 (ExtTreeMap.distinct_keys_toList.imp ?_)
  intro a b apart same
  exact apart (Std.LawfulEqOrd.compare_eq_iff_eq.2 same)

private theorem nodup_toList (map : ExtTreeMap κ β) : map.toList.Nodup :=
  List.Pairwise.of_map (·.1) (fun _ _ apart same => apart (congrArg Prod.fst same))
    (nodup_keys map)

/-- A map with a new value consists of that value and of what has another key. -/
theorem toList_insert_perm [DecidableEq κ] (map : ExtTreeMap κ β) (key : κ) (value : β) :
    (map.insert key value).toList.Perm ((key, value) :: (map.erase key).toList) := by
  apply (List.perm_ext_iff_of_nodup (nodup_toList _) ?_).2
  · rintro ⟨other, found⟩
    rw [List.mem_cons, ExtTreeMap.mem_toList_iff_getElem?_eq_some,
      ExtTreeMap.mem_toList_iff_getElem?_eq_some, getElem?_insert, getElem?_erase_eq_some]
    by_cases same : key = other
    · simp [same, eq_comm]
    · simp [same, Ne.symm same]
  · refine List.nodup_cons.2 ⟨fun member => ?_, nodup_toList _⟩
    rw [ExtTreeMap.mem_toList_iff_getElem?_eq_some, getElem?_erase_eq_some] at member
    exact member.1 rfl

theorem toList_erase_subset (map : ExtTreeMap κ β) (key : κ) :
    (map.erase key).toList ⊆ map.toList := by
  rintro ⟨other, found⟩ member
  rw [ExtTreeMap.mem_toList_iff_getElem?_eq_some] at member ⊢
  exact (getElem?_erase_eq_some.1 member).2

/-- The values of one sort are the same in maps that have the same of them. -/
theorem filter_values_congr {after : ExtTreeMap κ β} {keeps : β → Bool}
    (same : ∀ (key : κ) (value : β), keeps value = true →
      (map[key]? = some value ↔ after[key]? = some value)) :
    (map.toList.map (·.2)).filter keeps = (after.toList.map (·.2)).filter keeps := by
  have filters : (map.filter fun _ value => keeps value) =
      after.filter fun _ value => keeps value := by
    refine ExtTreeMap.ext_getElem? fun key => Option.ext fun value => ?_
    rw [getElem?_filter_eq_some, getElem?_filter_eq_some]
    exact and_congr_left (same key value)
  have lists := congrArg ExtTreeMap.toList filters
  rw [ExtTreeMap.toList_filter, ExtTreeMap.toList_filter] at lists
  rw [List.filter_map, List.filter_map]
  exact congrArg (List.map (·.2)) lists

variable {name : β → κ}

/-- If values name their keys, the names of the values are the keys. -/
theorem map_values (named : ∀ key value, map[key]? = some value → name value = key) :
    (map.toList.map (·.2)).map name = map.toList.map (·.1) := by
  rw [List.map_map]
  refine List.map_congr_left ?_
  rintro ⟨key, value⟩ member
  exact named key value (ExtTreeMap.mem_toList_iff_getElem?_eq_some.1 member)

theorem nodup_map_values (named : ∀ key value, map[key]? = some value → name value = key) :
    ((map.toList.map (·.2)).map name).Nodup := by
  rw [map_values named]
  exact nodup_keys map

theorem find?_values [DecidableEq κ]
    (named : ∀ key value, map[key]? = some value → name value = key) (key : κ) :
    ((map.toList.map (·.2)).find? fun value => name value = key) = map[key]? := by
  cases looked : map[key]? with
  | none =>
      rw [List.find?_eq_none]
      intro value member same
      obtain ⟨other, found⟩ := mem_values.1 member
      have own := named other value found
      rw [of_decide_eq_true same] at own
      rw [own, found] at looked
      cases looked
  | some value =>
      cases search : (map.toList.map (·.2)).find? fun value => name value = key with
      | none =>
          have absent := List.find?_eq_none.1 search value (mem_values.2 ⟨key, looked⟩)
          exact absurd (decide_eq_true (named key value looked)) absent
      | some found =>
          obtain ⟨other, own⟩ := mem_values.1 (List.mem_of_find?_eq_some search)
          have asked : name found = key := by simpa using List.find?_some search
          have same : other = key := (named other found own).symm.trans asked
          rw [← looked, ← same, own]

theorem any_values [DecidableEq κ]
    (named : ∀ key value, map[key]? = some value → name value = key) (key : κ) :
    ((map.toList.map (·.2)).any fun value => name value = key) = map.contains key := by
  rw [ExtTreeMap.contains_eq_isSome_getElem?, ← find?_values named key, List.isSome_find?]

end DocAccess.Map
