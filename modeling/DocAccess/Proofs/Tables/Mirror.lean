import DocAccess.Proofs.Map
import DocAccess.Relational.Table

/-!
# Tables that hold a map

When the rows of a table are the values of a map, every change of the one by key is a
change of the other by key. The order of keys must be that of their cells, so that the
rows come in the order of the values.
-/

set_option autoImplicit false

namespace DocAccess.Relational

/-- How the keys and values of a map are written as cells and rows. -/
structure Encoding (κ β : Type) [Ord κ] where
  cells : κ → List Cell
  row : β → Row
  compare_cells (a b : κ) : compare (cells a) (cells b) = compare a b

variable {κ β : Type} [Ord κ]

theorem Encoding.cells_inj [Std.LawfulEqOrd κ] (encoding : Encoding κ β) {a b : κ} :
    encoding.cells a = encoding.cells b ↔ a = b := by
  rw [← Std.LawfulEqOrd.compare_eq_iff_eq, encoding.compare_cells,
    Std.LawfulEqOrd.compare_eq_iff_eq]

variable [Std.TransOrd κ]

namespace Table

/-- The rows of a table are the values of a map, kept by their keys. -/
structure Mirrors (table : Table) (encoding : Encoding κ β) (map : Std.ExtTreeMap κ β) :
    Prop where
  row?_cells (key : κ) : table.row? (encoding.cells key) = map[key]?.map encoding.row
  cells_of_row? {key : List Cell} {row : Row} :
    table.row? key = some row → ∃ named, key = encoding.cells named
  unkeyed : table.unkeyed = ∅

namespace Mirrors

variable {table : Table} {encoding : Encoding κ β} {map : Std.ExtTreeMap κ β}

theorem row?_eq_some_iff (mirrors : table.Mirrors encoding map) {key : List Cell} {row : Row} :
    table.row? key = some row ↔
      ∃ named value, map[named]? = some value ∧ key = encoding.cells named ∧
        row = encoding.row value := by
  constructor
  · intro found
    obtain ⟨named, rfl⟩ := mirrors.cells_of_row? found
    rw [mirrors.row?_cells, Option.map_eq_some_iff] at found
    obtain ⟨value, looked, rfl⟩ := found
    exact ⟨named, value, looked, rfl, rfl⟩
  · intro given
    obtain ⟨named, value, looked, rfl, rfl⟩ := given
    rw [mirrors.row?_cells, looked]
    rfl

theorem contains_cells (mirrors : table.Mirrors encoding map) (key : κ) :
    table.keyed.contains (encoding.cells key) = map.contains key := by
  have looked := congrArg Option.isSome (mirrors.row?_cells key)
  simpa [row?] using looked

variable [Std.LawfulEqOrd κ]

theorem put (mirrors : table.Mirrors encoding map) {key : κ} {value : β} {number : Int}
    (keyed : table.schema.isKey (encoding.cells key) = true)
    (named : table.schema.keyOf (encoding.row value) = encoding.cells key) :
    (table.put ⟨number, encoding.row value⟩).Mirrors encoding (map.insert key value) := by
  have rows (other : List Cell) := row?_put table ⟨number, encoding.row value⟩ other (named ▸ keyed)
  simp only [named] at rows
  constructor
  · intro other
    rw [rows]
    by_cases same : other = key
    · subst same
      simp
    · rw [if_neg (mt encoding.cells_inj.1 same), Map.getElem?_insert_of_ne same, mirrors.row?_cells]
  · intro other row found
    rw [rows] at found
    by_cases same : other = encoding.cells key
    · exact ⟨key, same⟩
    · rw [if_neg same] at found
      exact mirrors.cells_of_row? found
  · have kept : (table.put ⟨number, encoding.row value⟩).unkeyed = table.unkeyed := by
      simp [Table.put, named, keyed]
    exact kept.trans mirrors.unkeyed

theorem modify (mirrors : table.Mirrors encoding map) {key : κ} {old new : β}
    {change : Row → Row} (held : map[key]? = some old)
    (changed : change (encoding.row old) = encoding.row new) :
    (table.modify (encoding.cells key) change).Mirrors encoding (map.insert key new) := by
  constructor
  · intro other
    rw [row?_modify]
    by_cases same : other = key
    · subst same
      simp [mirrors.row?_cells, held, changed]
    · rw [if_neg (mt encoding.cells_inj.1 same), Map.getElem?_insert_of_ne same, mirrors.row?_cells]
  · intro other row found
    rw [row?_modify] at found
    by_cases same : other = encoding.cells key
    · exact ⟨key, same⟩
    · rw [if_neg same] at found
      exact mirrors.cells_of_row? found
  · exact mirrors.unkeyed

theorem erase (mirrors : table.Mirrors encoding map) (key : κ) :
    (table.erase (encoding.cells key)).Mirrors encoding (map.erase key) := by
  constructor
  · intro other
    rw [row?_erase]
    by_cases same : other = key
    · subst same
      simp
    · rw [if_neg (mt encoding.cells_inj.1 same), Map.getElem?_erase_of_ne same, mirrors.row?_cells]
  · intro other row found
    rw [row?_erase] at found
    by_cases same : other = encoding.cells key
    · exact ⟨key, same⟩
    · rw [if_neg same] at found
      exact mirrors.cells_of_row? found
  · exact mirrors.unkeyed

theorem filter (mirrors : table.Mirrors encoding map) {keeps : Row → Bool} {keep : κ → β → Bool}
    (agree : ∀ key value, map[key]? = some value → keeps (encoding.row value) = keep key value) :
    (table.filter keeps).Mirrors encoding (map.filter keep) := by
  have rows (key : List Cell) : (table.filter keeps).row? key = (table.row? key).filter keeps := by
    simp only [Table.filter, row?, Std.ExtTreeMap.getElem?_filter']
    cases table.keyed[key]? with
    | none => rfl
    | some entry => by_cases kept : keeps entry.row <;> simp [Option.filter, kept]
  constructor
  · intro key
    rw [rows, mirrors.row?_cells, Std.ExtTreeMap.getElem?_filter']
    cases held : map[key]? with
    | none => rfl
    | some value =>
        have same := agree key value held
        by_cases kept : keep key value <;> simp [Option.filter, kept, same]
  · intro key row found
    rw [rows, Option.filter_eq_some_iff] at found
    exact mirrors.cells_of_row? found.1
  · simp only [Table.filter, mirrors.unkeyed]
    refine Std.ExtTreeMap.ext_getElem? fun number => ?_
    simp

theorem rows_eq (mirrors : table.Mirrors encoding map) :
    table.rows = (map.toList.map (·.2)).map encoding.row := by
  let stored := table.keyed.toList.map fun entry => (entry.1, entry.2.row)
  let written := map.toList.map fun entry => (encoding.cells entry.1, encoding.row entry.2)
  have storedOrder : stored.Pairwise fun a b => compare a.1 b.1 = .lt :=
    List.pairwise_map.2 Std.ExtTreeMap.ordered_keys_toList
  have writtenOrder : written.Pairwise fun a b => compare a.1 b.1 = .lt := by
    refine List.pairwise_map.2 (Std.ExtTreeMap.ordered_keys_toList.imp ?_)
    intro a b order
    rw [encoding.compare_cells]
    exact order
  have distinct {entries : List (List Cell × Row)}
      (order : entries.Pairwise fun a b => compare a.1 b.1 = .lt) : entries.Nodup := by
    refine order.imp ?_
    rintro a _ less rfl
    simp at less
  have members (key : List Cell) (row : Row) : (key, row) ∈ stored ↔ (key, row) ∈ written := by
    have inTable : (key, row) ∈ stored ↔ table.row? key = some row := by
      simp only [stored, List.mem_map, Prod.mk.injEq, row?, Option.map_eq_some_iff]
      constructor
      · intro given
        obtain ⟨⟨_, entry⟩, member, rfl, rfl⟩ := given
        exact ⟨entry, Std.ExtTreeMap.mem_toList_iff_getElem?_eq_some.1 member, rfl⟩
      · intro given
        obtain ⟨entry, found, rfl⟩ := given
        exact ⟨(key, entry), Std.ExtTreeMap.mem_toList_iff_getElem?_eq_some.2 found, rfl, rfl⟩
    rw [inTable, mirrors.row?_eq_some_iff]
    simp only [written, List.mem_map, Prod.mk.injEq]
    constructor
    · intro given
      obtain ⟨named, value, looked, rfl, rfl⟩ := given
      exact ⟨(named, value), Std.ExtTreeMap.mem_toList_iff_getElem?_eq_some.2 looked, rfl, rfl⟩
    · intro given
      obtain ⟨⟨named, value⟩, member, rfl, rfl⟩ := given
      exact ⟨named, value, Std.ExtTreeMap.mem_toList_iff_getElem?_eq_some.1 member, rfl, rfl⟩
  have perm : stored.Perm written := by
    rw [List.perm_ext_iff_of_nodup (distinct storedOrder) (distinct writtenOrder)]
    intro given
    obtain ⟨key, row⟩ := given
    exact members key row
  have same : stored = written := by
    refine perm.eq_of_pairwise ?_ storedOrder writtenOrder
    intro a b _ _ less more
    rw [Std.OrientedCmp.gt_of_lt less] at more
    cases more
  have values := congrArg (List.map Prod.snd) same
  have none : (∅ : Std.ExtTreeMap Int Row).toList = [] := Std.ExtTreeMap.toList_eq_nil_iff.2 rfl
  simpa [stored, written, Table.rows, mirrors.unkeyed, none, Function.comp_def] using values

end Mirrors
end Table
end DocAccess.Relational
