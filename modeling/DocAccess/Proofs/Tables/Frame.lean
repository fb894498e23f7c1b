import DocAccess.Proofs.Text.Base64Url
import DocAccess.Store.Tables

/-!
# Tables that no operation names

A statement writes to the table that it names and to no other. So whatever an operation does,
and however it ends, the tables beside those of documents, permissions and guests are as they
were.
-/

set_option autoImplicit false

namespace DocAccess

open Relational (Cell Database DatabaseError NumberedRow Row Table TableSchema)

variable {α β : Type}

/-! ## Statements -/

theorem Relational.except_map_eq_ok_iff {source : Except DatabaseError α} {change : α → β}
    {result : β} :
    source.map change = .ok result ↔ ∃ value, source = .ok value ∧ change value = result := by
  cases source <;> simp [Except.map]

namespace Relational.Database

variable {database changed : Database} {name target : String} {table written : Table}

theorem sameName_of_table? (found : database.table? name = some table) :
    sameName table.schema.name name = true := by
  apply List.find?_some (p := fun table : Table => sameName table.schema.name name)
  exact found

theorem table_eq_ok_iff : database.table name = .ok table ↔ database.table? name = some table := by
  rw [Database.table]
  cases database.table? name with
  | none => simp
  | some found => simp

theorem table?_setTable (database : Database) (written : Table) (name : String) :
    (database.setTable written).table? name =
      if sameName written.schema.name name then
        (database.table? name).map fun table =>
          if table.schema.name = written.schema.name then written else table
      else database.table? name := by
  unfold setTable table?
  induction database.tables with
  | nil => simp
  | cons table rest ih =>
      rw [List.map_cons, List.find?_cons, List.find?_cons, ih]
      by_cases named : table.schema.name = written.schema.name
      · rw [if_pos named, named]
        cases sameName written.schema.name name with
        | true => simp [named]
        | false => simp
      · rw [if_neg named]
        cases sameName table.schema.name name with
        | true => simp [named]
        | false => simp

theorem table?_setTable_self (found : database.table? name = some table)
    (formed : written.schema = table.schema) :
    (database.setTable written).table? name = some written := by
  have named := sameName_of_table? found
  rw [table?_setTable, formed, named, if_pos rfl, found, Option.map_some, if_pos rfl]

/-- What a statement that names a table can make of a database. -/
inductive Writes (database : Database) (name : String) : Database → Prop where
  | nothing : Writes database name database
  | table {table written : Table} (found : database.table? name = some table)
      (formed : written.schema = table.schema) : Writes database name (database.setTable written)

theorem Writes.table?_eq (writes : database.Writes target changed)
    (apart : sameName target name = false) : changed.table? name = database.table? name := by
  cases writes with
  | nothing => rfl
  | table found formed =>
      have named := sameName_congr (sameName_of_table? found) name
      rw [apart] at named
      rw [table?_setTable, formed, named, if_neg Bool.false_ne_true]

theorem Writes.indexes_eq (writes : database.Writes target changed) :
    changed.indexes = database.indexes := by
  cases writes with
  | nothing => rfl
  | table found formed => rfl

theorem insert_eq_ok {enforcement : Enforcement} {given : Row} {number : Cell}
    (done : database.insert enforcement name given number = .ok changed) :
    ∃ table added, database.table? name = some table ∧ table.prepare given number = .ok added ∧
      table.hasHiddenNumber added.number = false ∧
      table.hasKey (table.schema.keyOf added.row) = false ∧
      changed = database.setTable (table.put added) := by
  unfold insert at done
  split at done
  · cases done
  rename_i table found
  split at done
  · cases done
  split at done
  · cases done
  rename_i added prepared
  split at done
  · cases done
  split at done
  · cases done
  rename_i unnumbered
  split at done
  · cases done
  rename_i unkeyed
  dsimp only at done
  split at done
  · cases done
  cases done
  exact ⟨table, added, table_eq_ok_iff.1 found, prepared, Bool.eq_false_iff.2 unnumbered,
    Bool.eq_false_iff.2 unkeyed, rfl⟩

theorem writes_insert {enforcement : Enforcement} {given : Row} {number : Cell}
    (done : database.insert enforcement name given number = .ok changed) :
    database.Writes name changed := by
  obtain ⟨table, added, found, -, -, -, rfl⟩ := insert_eq_ok done
  exact .table found (table.schema_put added)

theorem writes_insertNamed {enforcement : Enforcement} {cells : List (String × Cell)}
    (done : database.insertNamed enforcement name cells = .ok changed) :
    database.Writes name changed := by
  unfold insertNamed at done
  split at done
  · cases done
  · split at done
    · cases done
    · exact writes_insert done

theorem writes_update {key : List Cell} {guard : Row → Bool} {change : Row → Row} {count : Nat}
    (done : database.update name key guard change = .ok (count, changed)) :
    database.Writes name changed := by
  unfold update at done
  split at done
  · cases done
  rename_i table found
  split at done
  · split at done
    · cases done
      exact .table (table_eq_ok_iff.1 found) (table.schema_modify key change)
    · cases done
      exact .nothing
  · cases done
    exact .nothing

theorem writes_upsert {enforcement : Enforcement} {given : Row} {guard : Row → Bool}
    {change : Row → Row} {count : Nat}
    (done : database.upsert enforcement name given guard change = .ok (count, changed)) :
    database.Writes name changed := by
  unfold upsert at done
  split at done
  · cases done
  rename_i table found
  dsimp only at done
  split at done
  · split at done
    · cases done
      exact .table (table_eq_ok_iff.1 found) (table.schema_modify _ change)
    · cases done
      exact .nothing
  · obtain ⟨inserted, added, same⟩ := except_map_eq_ok_iff.1 done
    cases same
    exact writes_insert added

theorem writes_delete {enforcement : Enforcement} {key : List Cell} {count : Nat}
    (done : database.delete enforcement name key = .ok (count, changed)) :
    database.Writes name changed := by
  unfold delete at done
  split at done
  · cases done
  rename_i table found
  split at done
  · cases done
    exact .nothing
  · dsimp only at done
    split at done
    · cases done
    · cases done
      exact .table (table_eq_ok_iff.1 found) (table.schema_erase key)

theorem writes_deleteWhere {condition : Row → Bool}
    (done : database.deleteWhere name condition = .ok changed) : database.Writes name changed := by
  obtain ⟨table, found, rfl⟩ := except_map_eq_ok_iff.1 done
  exact .table (table_eq_ok_iff.1 found) (table.schema_filter _)

/-! ## Definitions -/

theorem createTable_eq_ok {schema : TableSchema}
    (done : database.createTable schema = .ok changed) :
    database.hasName schema.name = false ∧
      changed = { database with tables := database.tables ++ [{ schema := schema }] } := by
  unfold createTable at done
  split at done
  · cases done
  · next unnamed =>
    cases done
    exact ⟨Bool.eq_false_iff.2 unnamed, rfl⟩

theorem table?_created {schema : TableSchema} (done : database.createTable schema = .ok changed) :
    changed.table? schema.name = some { schema := schema } := by
  obtain ⟨unnamed, rfl⟩ := createTable_eq_ok done
  have free : database.table? schema.name = none := by
    simpa using (Bool.or_eq_false_iff.1 unnamed).1
  rw [table?] at free ⊢
  simp [List.find?_append, free, sameName_self]

theorem table?_kept {schema : TableSchema} (done : database.createTable schema = .ok changed)
    {name : String} {table : Table} (found : database.table? name = some table) :
    changed.table? name = some table := by
  obtain ⟨-, rfl⟩ := createTable_eq_ok done
  rw [table?] at found ⊢
  rw [List.find?_append, found]
  rfl

theorem createIndex_eq_ok {name target : String}
    (done : database.createIndex name target = .ok changed) :
    changed = { database with indexes := database.indexes ++ [(name, target)] } := by
  unfold createIndex at done
  split at done
  · cases done
  · split at done
    · cases done
    · split at done
      · cases done
      · cases done
        rfl

theorem createIndexes_eq_ok {entries : List (String × String)}
    (done : entries.foldlM (fun database (name, table) => createIndex database name table)
      database = .ok changed) :
    changed = { database with indexes := database.indexes ++ entries } := by
  induction entries generalizing database with
  | nil =>
      cases done
      rw [List.append_nil]
  | cons entry rest ih =>
      rw [List.foldlM_cons] at done
      obtain ⟨middle, made, others⟩ := except_bind_eq_ok_iff.1 done
      rw [ih others, createIndex_eq_ok made, List.append_assoc, List.singleton_append]

end Relational.Database

/-! ## Transactions -/

/-- A body none of whose statements changes the table of a name. -/
inductive Body.Spares (name : String) : {α : Type} → Body α → Prop where
  | done {α : Type} (result : Except StoreError α) : Spares name (.done result)
  | statement {α β : Type} {run : Database → β × Database} {next : Except StoreError β → Body α}
      (same : ∀ database, (run database).2.table? name = database.table? name)
      (rest : ∀ given, Spares name (next given)) : Spares name (.statement run next)

namespace Body

variable {name : String} {report : DatabaseError → StoreError}

theorem spares_attempt {run : Database → Except DatabaseError (β × Database)} {next : β → Body α}
    (same : ∀ database value changed, run database = .ok (value, changed) →
      changed.table? name = database.table? name)
    (rest : ∀ value, (next value).Spares name) : (attempt run report next).Spares name := by
  apply Spares.statement
  · intro database
    cases ran : run database with
    | ok result => exact same database result.1 result.2 ran
    | error error => rfl
  · intro given
    cases given with
    | error failure => exact .done _
    | ok result =>
        cases result with
        | error failure => exact .done _
        | ok value => exact rest value

theorem spares_execute {run : Database → Except DatabaseError Database} {next : Body α}
    (same : ∀ database changed, run database = .ok changed →
      changed.table? name = database.table? name)
    (rest : next.Spares name) : (execute run report next).Spares name := by
  apply spares_attempt
  · intro database value changed ran
    obtain ⟨other, done, paired⟩ := Relational.except_map_eq_ok_iff.1 ran
    cases paired
    exact same database changed done
  · exact fun _ => rest

private theorem Spares.run {body : Body α} (spares : body.Spares name) (cancellation : Cancellation)
    (operation : String) (look : Nat) (database : Database) :
    (body.run cancellation operation look database).2.1.table? name = database.table? name := by
  induction spares generalizing look database with
  | done result => rfl
  | statement same rest ih =>
      rw [Body.run]
      split
      · exact ih _ (look + 1) database
      · exact (ih _ (look + 1) _).trans (same database)

private theorem Spares.inTransaction {body : Body α} (spares : body.Spares name)
    (cancellation : Cancellation) (faults : TransactionFaults) (operation : String) (look : Nat)
    (database : Database) :
    (inTransaction cancellation faults operation look database body).2.table? name =
      database.table? name := by
  have ran := spares.run cancellation operation (look + 1) database
  unfold DocAccess.inTransaction
  split
  · rfl
  · split
    · rfl
    · cases result : body.run cancellation operation (look + 1) database with
      | mk answer rest =>
          rw [result] at ran
          cases answer with
          | error failure => rfl
          | ok value =>
              rw [finish]
              split
              · rfl
              · split
                · rfl
                · exact ran

end Body

/-! ## Operations -/

/-- A name that is none of those to which operations write. -/
structure Schema.Foreign (name : String) : Prop where
  documents : Relational.sameName "documents" name = false
  permissions : Relational.sameName "permissions" name = false
  guests : Relational.sameName "guests" name = false

namespace TableStore

/-- A store in which the table of a name is as it was, and so is the lock. -/
structure Keeps (name : String) (store after : TableStore) : Prop where
  table : after.database.table? name = store.database.table? name
  lock : after.writeLocked = store.writeLocked

variable {name operation : String} {store : TableStore} {cancellation : Cancellation}

theorem Keeps.refl (name : String) (store : TableStore) : Keeps name store store := ⟨rfl, rfl⟩

private theorem keeps_worker {work : Outcome α × TableStore} (keeps : Keeps name store work.2) :
    Keeps name store (store.worker cancellation operation work).2 := by
  unfold worker
  split
  · exact .refl name store
  · exact keeps

private theorem keeps_clocked {moment : Moment} {work : Timestamp → Outcome α × TableStore}
    (keeps : ∀ now, Keeps name store (work now).2) :
    Keeps name store (store.clocked operation moment work).2 := by
  unfold clocked
  split
  · exact keeps _
  · exact .refl name store

private theorem keeps_transaction {body : Body α} (spares : body.Spares name) :
    Keeps name store (store.transaction cancellation operation body).2 :=
  ⟨spares.inTransaction cancellation _ operation 2 store.database, rfl⟩

private theorem keeps_execute {report : DatabaseError → StoreError} {unchanged : StoreError}
    {statement : Database → Except DatabaseError (Nat × Database)}
    (same : ∀ count changed, statement store.database = .ok (count, changed) →
      changed.table? name = store.database.table? name) :
    Keeps name store (store.execute report unchanged statement).2 := by
  unfold execute
  split
  · exact .refl name store
  · split
    · exact .refl name store
    · exact .refl name store
    · next count changed _ done => exact ⟨same count changed done, rfl⟩

variable (foreign : Schema.Foreign name)

include foreign

private theorem spares_createDocument (document : Document) (owner : Permission) :
    (createDocument document owner).Spares name := by
  apply Body.spares_execute
  · exact fun _ _ done => (Database.writes_insert done).table?_eq foreign.documents
  · apply Body.spares_execute
    · exact fun _ _ done => (Database.writes_insert done).table?_eq foreign.permissions
    · exact .done _

private theorem spares_deleteDocument (id : DocumentId) : (deleteDocument id).Spares name := by
  apply Body.spares_execute
  · exact fun _ _ done => (Database.writes_deleteWhere done).table?_eq foreign.permissions
  · apply Body.spares_execute
    · exact fun _ _ done => (Database.writes_deleteWhere done).table?_eq foreign.guests
    · apply Body.spares_attempt
      · exact fun _ _ _ done => (Database.writes_delete done).table?_eq foreign.documents
      · exact fun _ => .done _

private theorem spares_createGuest (guest : Guest) (permission : Permission) :
    (createGuest guest permission).Spares name := by
  apply Body.spares_execute
  · exact fun _ _ done => (Database.writes_insert done).table?_eq foreign.guests
  · apply Body.spares_execute
    · exact fun _ _ done => (Database.writes_insert done).table?_eq foreign.permissions
    · exact .done _

private theorem table?_updateGuest {guest : GuestId} {level : PermissionLevel} {now : Timestamp}
    {database changed : Database} {count : Nat}
    (done : updateGuest guest level now database = .ok (count, changed)) :
    changed.table? name = database.table? name := by
  unfold updateGuest at done
  split at done
  · cases done
  · cases done
    rfl
  · exact (Database.writes_update done).table?_eq foreign.permissions

/-- However an operation ends, it has written to its own tables only. -/
theorem keeps_stepUnder (store : TableStore) (cancellation : Cancellation) (moment : Moment)
    (operation : Operation α) :
    Keeps name store (stepUnder cancellation store moment operation).2 := by
  cases operation with
  | createDocument creator fields =>
      apply keeps_worker
      apply keeps_clocked
      exact fun now => keeps_transaction (spares_createDocument foreign _ _)
  | getDocument id => exact keeps_worker (.refl name store)
  | updateDocument id fields =>
      simp only [stepUnder]
      split
      · exact .refl name store
      · apply keeps_worker
        apply keeps_clocked
        intro now
        apply keeps_execute
        exact fun _ _ done => (Database.writes_update done).table?_eq foreign.documents
  | deleteDocument id =>
      apply keeps_worker
      exact keeps_transaction (spares_deleteDocument foreign id)
  | upsertUser user document level =>
      apply keeps_worker
      apply keeps_clocked
      intro now
      apply keeps_execute
      exact fun _ _ done => (Database.writes_upsert done).table?_eq foreign.permissions
  | updateGuest guest level =>
      apply keeps_worker
      apply keeps_clocked
      intro now
      apply keeps_execute
      exact fun _ _ done => table?_updateGuest foreign done
  | getPermission document principal => exact keeps_worker (.refl name store)
  | deletePermission principal document =>
      apply keeps_worker
      apply keeps_execute
      exact fun _ _ done => (Database.writes_delete done).table?_eq foreign.permissions
  | listPermissions document listing =>
      simp only [stepUnder]
      split
      · exact .refl name store
      · exact keeps_worker (.refl name store)
  | listDocuments principal listing =>
      simp only [stepUnder]
      split
      · exact .refl name store
      · exact keeps_worker (.refl name store)
  | createGuest creator document level =>
      apply keeps_worker
      apply keeps_clocked
      exact fun now => keeps_transaction (spares_createGuest foreign _ _)
  | getGuest guest => exact keeps_worker (.refl name store)

end TableStore
end DocAccess
