import DocAccess.Proofs.Map
import DocAccess.Proofs.Tables.Frame
import DocAccess.Proofs.Tables.Reading

/-!
# Records of versions

Which versions a database records, and what one more record adds to them. The table of the
records may be any that has a column for versions.
-/

set_option autoImplicit false

namespace DocAccess

open Relational (Affinity Cell Column Database DatabaseError NumberedRow Row Table TableSchema)

/-! ## The greatest version -/

namespace Relational.Cell

instance : Std.TransCmp order :=
  inferInstanceAs (Std.TransCmp
    (compareLex (compareOn fun cell : Cell => cell.cellClass.rank)
      (compareLex (compareOn integerPart)
        (compareLex (compareOn fractionPart)
          (compareLex (compareOn textPart) (compareOn blobPart))))))

variable {cell other found : Cell} {cells : List Cell}

theorem before_eq_false_iff : cell.before other = false ↔ (order cell other).isGE = true := by
  rw [before]
  cases order cell other <;> decide

private theorem before_irrefl (cell : Cell) : cell.before cell = false := by
  rw [before_eq_false_iff, @Std.ReflCmp.compare_self _ order]
  rfl

private theorem before_asymm (before : cell.before other = true) : other.before cell = false := by
  have less : order cell other = .lt := by simpa [Cell.before] using before
  rw [before_eq_false_iff, Std.OrientedCmp.gt_of_lt less]
  rfl

theorem greatest?_eq_none_iff : greatest? cells = none ↔ cells = [] := by
  cases cells with
  | nil => simp [greatest?]
  | cons cell later =>
      rw [greatest?]
      cases greatest? later with
      | none => simp
      | some found => simp

theorem not_before_of_greatest? (greatest : greatest? cells = some found)
    (member : cell ∈ cells) : found.before cell = false := by
  induction cells generalizing found with
  | nil => cases greatest
  | cons head later ih =>
      rw [greatest?] at greatest
      cases rest : greatest? later with
      | none =>
          rw [rest] at greatest
          cases greatest
          rw [greatest?_eq_none_iff.1 rest, List.mem_singleton] at member
          rw [member]
          exact before_irrefl head
      | some last =>
          rw [rest, Option.some.injEq] at greatest
          subst greatest
          cases below : head.before last with
          | true =>
              rw [if_pos rfl]
              rcases List.mem_cons.1 member with rfl | member
              · exact before_asymm below
              · exact ih rest member
          | false =>
              rw [if_neg Bool.false_ne_true]
              rcases List.mem_cons.1 member with rfl | member
              · exact before_irrefl cell
              · -- What is last is not before the head, and no other cell is after what is last.
                rw [before_eq_false_iff] at below ⊢
                exact Std.TransCmp.isGE_trans below (before_eq_false_iff.1 (ih rest member))

end Relational.Cell

/-! ## Records of versions -/

namespace Relational.Row

variable {row : Row} {position other : Nat}

theorem cell_set_self {given : Cell} (inside : position < row.length) :
    Row.cell (row.set position given) position = given := by
  simp [cell, inside]

theorem cell_set_of_ne {given : Cell} (apart : other ≠ position) :
    Row.cell (row.set other given) position = row.cell position := by
  simp [cell, apart]

end Relational.Row

namespace Relational.TableSchema

variable {schema : TableSchema} {name : String} {position : Nat}

theorem position?_eq_some (placed : schema.position? name = some position) :
    ∃ inside : position < schema.columns.length,
      sameName schema.columns[position].name name = true := by
  obtain ⟨inside, named, -⟩ := List.findIdx?_eq_some_iff_getElem.1 placed
  exact ⟨inside, named⟩

/-- Names of one column are the same. -/
private theorem sameName_of_position? {other : String}
    (placed : schema.position? name = some position)
    (placed' : schema.position? other = some position) : sameName name other = true := by
  obtain ⟨inside, named⟩ := position?_eq_some placed
  obtain ⟨_, named'⟩ := position?_eq_some placed'
  rwa [sameName_congr named] at named'

end Relational.TableSchema

namespace Relational.Table

/-- A row that is put into a table is there once, beside rows that have been there. -/
theorem rows_put (table : Table) (added : NumberedRow) :
    ∃ others, (table.put added).rows.Perm (added.row :: others) ∧ others ⊆ table.rows := by
  unfold put rows
  split
  · refine ⟨(table.keyed.erase (table.schema.keyOf added.row)).toList.map (·.2.row) ++
      table.unkeyed.toList.map (·.2), ?_, ?_⟩
    · have keyed := Map.toList_insert_perm table.keyed (table.schema.keyOf added.row) added
      exact (keyed.map (·.2.row)).append_right _
    · intro row member
      rcases List.mem_append.1 member with kept | kept
      · have keyed := Map.toList_erase_subset table.keyed (table.schema.keyOf added.row)
        exact List.mem_append_left _ (List.map_subset _ keyed kept)
      · exact List.mem_append_right _ kept
  · refine ⟨table.keyed.toList.map (·.2.row) ++
      (table.unkeyed.erase added.number).toList.map (·.2), ?_, ?_⟩
    · have unkeyed := Map.toList_insert_perm table.unkeyed added.number added.row
      exact ((unkeyed.map (·.2)).append_left _).trans List.perm_middle
    · intro row member
      rcases List.mem_append.1 member with kept | kept
      · exact List.mem_append_left _ kept
      · have unkeyed := Map.toList_erase_subset table.unkeyed added.number
        exact List.mem_append_right _ (List.map_subset _ unkeyed kept)

end Relational.Table

namespace Migration

variable {database after : Database}

theorem versions_eq_ok {cells : List Cell} (recorded : versions database = .ok cells) :
    ∃ table position, database.table? Schema.migrations.name = some table ∧
      table.schema.position? "version" = some position ∧
      cells = (table.rows.map fun row => row.cell position).filter fun cell => !cell.isNull := by
  unfold versions Database.table at recorded
  cases found : database.table? Schema.migrations.name with
  | none =>
      rw [found] at recorded
      cases recorded
  | some table =>
      rw [found] at recorded
      dsimp only at recorded
      cases placed : table.schema.position? "version" with
      | none =>
          rw [placed] at recorded
          cases recorded
      | some position =>
          rw [placed] at recorded
          cases recorded
          exact ⟨table, position, rfl, placed, rfl⟩

theorem versions_of_table? {table : Table} {position : Nat}
    (found : database.table? Schema.migrations.name = some table)
    (placed : table.schema.position? "version" = some position) :
    versions database =
      .ok ((table.rows.map fun row => row.cell position).filter fun cell => !cell.isNull) := by
  simp only [versions, Database.table, found, placed]

/-! ## A new record -/

variable {schema : TableSchema} {position : Nat}

private theorem rowOf_version (placed : schema.position? "version" = some position) {version : Nat}
    {now : Timestamp} {row : Row} {number : Cell}
    (given : schema.rowOf (versionCells version now) = .ok (row, number)) :
    row.cell position = .integer version ∧ row.length = schema.columns.length := by
  obtain ⟨inside, named⟩ := TableSchema.position?_eq_some placed
  have apart : Relational.sameName "version" "applied_at" = false := by decide
  have cells : versionCells version now =
      [("version", .integer version), ("applied_at", .integer now.micros)] := rfl
  have named' : Relational.sameName "version" schema.columns[position].name = true :=
    (Relational.sameName_congr named _).symm.trans (Relational.sameName_self _)
  rw [cells] at given
  unfold TableSchema.rowOf at given
  dsimp only at given
  split at given
  · cases given
  · rw [List.isEmpty_cons, if_neg Bool.false_ne_true] at given
    have whole : Row.cell (schema.columns.map fun column =>
        (([("version", Cell.integer version), ("applied_at", .integer now.micros)].find?
          fun entry => Relational.sameName entry.1 column.name).map (·.2)).getD .null) position =
            .integer version := by
      simp [Row.cell, inside, named']
    split at given
    · next place shows =>
      cases given
      refine ⟨?_, by simp⟩
      by_cases same : place = position
      · subst same
        rw [Row.cell_set_self (by simpa using inside)]
        have gives : schema.givesNumber "version" = true := by
          simp [TableSchema.givesNumber, placed, shows]
        have keeps : schema.givesNumber "applied_at" = false := by
          unfold TableSchema.givesNumber
          cases other : schema.position? "applied_at" with
          | none => exact (by decide : Relational.isNumberName "applied_at" = false)
          | some place' =>
              rw [shows, decide_eq_false_iff_not]
              intro shown
              cases shown
              rw [Relational.TableSchema.sameName_of_position? placed other] at apart
              cases apart
        simp [gives, keeps]
      · rw [Row.cell_set_of_ne same]
        exact whole
    · cases given
      exact ⟨whole, by simp⟩

/-- Whether a cell holds the current version, as a column that prefers texts holds it or not. -/
def IsCurrent (cell : Cell) : Prop :=
  cell = .integer currentVersion ∨ cell = .text "1"

private theorem IsCurrent.isNull_eq_false {cell : Cell} (current : IsCurrent cell) :
    cell.isNull = false := by
  rcases current with rfl | rfl
  · rfl
  · rfl

private theorem isCurrent_apply (affinity : Affinity) :
    IsCurrent (affinity.apply (.integer currentVersion)) := by
  cases affinity with
  | integer => exact .inl rfl
  | text => exact .inr (by decide +kernel)
  | asGiven => exact .inl rfl

private theorem numberOf_current {table : Table} {cell : Cell} (current : IsCurrent cell) :
    table.numberOf cell = .ok currentVersion := by
  rcases current with rfl | rfl
  · rfl
  · have read : Affinity.integer.apply (.text "1") = .integer 1 := by decide +kernel
    rw [Table.numberOf, read]
    rfl

private theorem prepare_current {table : Table}
    (placed : table.schema.position? "version" = some position)
    {row : Row} {number : Cell} (shows : row.cell position = .integer currentVersion)
    (whole : row.length = table.schema.columns.length) {added : NumberedRow}
    (prepared : table.prepare row number = .ok added) : IsCurrent (added.row.cell position) := by
  obtain ⟨inside, -⟩ := TableSchema.position?_eq_some placed
  have inside' : position < row.length := whole ▸ inside
  have kept : row[position] = .integer currentVersion := by
    rw [← shows]
    simp [Row.cell, inside']
  have converted : IsCurrent (Row.cell (table.schema.columns.zipWith
      (fun column cell => column.affinity.apply cell) row) position) := by
    simp only [Row.cell, List.getD_eq_getElem?_getD, List.getElem?_zipWith,
      List.getElem?_eq_getElem inside, List.getElem?_eq_getElem inside', kept]
    exact isCurrent_apply _
  unfold Table.prepare at prepared
  dsimp only at prepared
  split at prepared
  · next place shown =>
    obtain ⟨given, numbered, rfl⟩ := Relational.except_map_eq_ok_iff.1 prepared
    by_cases same : place = position
    · subst same
      rw [numberOf_current converted] at numbered
      cases numbered
      rw [Row.cell_set_self (by simp [whole, inside])]
      exact .inl rfl
    · rw [Row.cell_set_of_ne same]
      exact converted
  · obtain ⟨given, -, rfl⟩ := Relational.except_map_eq_ok_iff.1 prepared
    exact converted

theorem insertNamed_version {now : Timestamp} (unrecorded : versions database = .ok [])
    (done : database.insertNamed {} Schema.migrations.name (versionCells currentVersion now) =
      .ok after) :
    ∃ cell, IsCurrent cell ∧ versions after = .ok [cell] := by
  obtain ⟨table, position, found, placed, none⟩ := versions_eq_ok unrecorded
  unfold Database.insertNamed at done
  rw [Database.table_eq_ok_iff.2 found] at done
  dsimp only at done
  split at done
  · cases done
  · next row number given =>
    obtain ⟨shows, whole⟩ := rowOf_version placed given
    obtain ⟨same, added, found', prepared, -, -, rfl⟩ := Database.insert_eq_ok done
    cases found.symm.trans found'
    have current := prepare_current placed shows whole prepared
    have kept := table.schema_put added
    refine ⟨_, current, ?_⟩
    rw [versions_of_table? (Database.table?_setTable_self found kept) (kept ▸ placed)]
    obtain ⟨others, beside, old⟩ := table.rows_put added
    have unversioned : ((others.map fun row => row.cell position).filter
        fun cell => !cell.isNull) = [] := by
      rw [List.filter_eq_nil_iff]
      intro cell member
      exact List.filter_eq_nil_iff.1 none.symm cell (List.map_subset _ old member)
    have cells := (beside.map fun row => Row.cell row position).filter fun cell => !cell.isNull
    rw [List.map_cons, List.filter_cons_of_pos (by rw [current.isNull_eq_false]; rfl),
      unversioned] at cells
    rw [List.perm_singleton.1 cells]

end Migration
end DocAccess
