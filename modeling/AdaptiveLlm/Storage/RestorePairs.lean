import Mathlib.Data.Int.Notation
import Mathlib.Data.List.Nodup
import Mathlib.Data.Option.Basic
import Mathlib.Logic.Function.Basic

set_option autoImplicit false

/-! # Restoring a pair of databases

`restore_pair` (`storage/operations.py`) reads a backup of the tenant and the control database, two
files and `pair.json` with their hashes, checks that they belong together, and copies both into their
places in one transaction over the attached databases: the tables there are dropped, and those of the
backup are created and filled, but for the table that marks the pair.

A database is its tables with their schemas and rows. The copy reads schemas and rows of the backup
and writes them in place of what is there, so the proof that a copy is the database goes through
both loops, of the tables and of the rows. The table that marks a pair is left out, so that a
restored database is as it was before its backup. -/

namespace AdaptiveLlm

namespace Backups

/-! ## Databases -/

/-- A value of a row. -/
inductive Cell where
  | null
  | integer (n : ℤ)
  | text (s : String)
  | blob (bytes : List UInt8)
  deriving DecidableEq

/-- A table, with what follows its name in its SQL. -/
structure Table where
  name : String
  body : String
  rows : List (List Cell) := []
  deriving DecidableEq

/-- An index of a table. -/
structure Index where
  name : String
  unique : Bool := false
  table : String
  body : String
  deriving DecidableEq

/-- What a file of SQLite holds; `others` are the names of views and triggers. -/
structure Database where
  tables : List Table := []
  indexes : List Index := []
  others : List String := []
  deriving DecidableEq

namespace Database

/-- The names of the tables. -/
def tableNames (db : Database) : List String := db.tables.map (·.name)

/-- The names of everything the database has. -/
def names (db : Database) : List String := db.tableNames ++ db.indexes.map (·.name) ++ db.others

/-- `CREATE TABLE`, which fails where the name is taken. -/
def createTable (db : Database) (t : Table) : Option Database :=
  if t.name ∈ db.names then none else some { db with tables := db.tables ++ [t] }

/-- `CREATE INDEX`, which fails where the name is taken or the table is missing. -/
def createIndex (db : Database) (i : Index) : Option Database :=
  if i.name ∈ db.names ∨ i.table ∉ db.tableNames then none else
    some { db with indexes := db.indexes ++ [i] }

/-- DROP TABLE, which drops the indexes of the table. -/
def dropTable (db : Database) (name : String) : Database :=
  { db with
    tables := db.tables.filter (·.name ≠ name)
    indexes := db.indexes.filter (·.table ≠ name) }

/-- SELECT * FROM a table. -/
def select (db : Database) (name : String) : Option (List (List Cell)) :=
  (db.tables.find? (·.name = name)).map (·.rows)

/-- The versions of the ledger. -/
def versions (db : Database) : Option (List ℤ) :=
  (db.select "schema_migrations").map fun rows => rows.filterMap fun row =>
    match row.head? with
    | some (.integer n) => some n
    | _ => none

end Database

/-- The two databases of a pair. -/
inductive Role where
  | tenant
  | control
  deriving DecidableEq, Repr

/-- The role as the record of a backup writes it. -/
def Role.name : Role → String
  | .tenant => "tenant"
  | .control => "control"

/-- The table that marks the files of a pair. -/
def markTable (version : String) (role : Role) : Table where
  name := "backup_pair"
  body := " (version TEXT, role TEXT)"
  rows := [[.text version, .text role.name]]

/-! ## Validation -/

/-- `pair.json`. -/
structure PairRecord where
  version : String
  hashes : Role → String

/-- The directory of a backup; `none` where a file is missing or is no such record. -/
structure Directory where
  file : Role → Option (List UInt8)
  pair : Option PairRecord

/-- The files, and the versions in the names of the migrations. -/
structure Environment where
  /-- `none` is a file that SQLite cannot read, or whose integrity check fails -/
  read : List UInt8 → Option Database
  sha256 : List UInt8 → String
  expected : Role → List ℤ

namespace Environment

variable (env : Environment)

/-- Tenant ledgers may have kept the old migration 6. -/
def LedgerMatches (role : Role) (versions : List ℤ) : Bool :=
  (env.expected role).all (· ∈ versions) &&
    versions.all fun v => v ∈ env.expected role || (role = .tenant && v = 6)

/-- The checks of one file; the database in it. -/
def validate (dir : Directory) (role : Role) : Option Database := do
  let pair ← dir.pair
  let bytes ← dir.file role
  guard (env.sha256 bytes = pair.hashes role)
  let db ← env.read bytes
  guard (db.select "backup_pair" = some [[.text pair.version, .text role.name]])
  let versions ← db.versions
  guard (env.LedgerMatches role versions)
  some db

end Environment

/-! ## Copying -/

/-- The tables of the destination are dropped, and the schema of the origin is created and filled there. -/
def transfer (origin target : Database) : Option Database := do
  let tabled ← (origin.tables.filter (·.name ≠ "backup_pair")).foldlM Database.createTable
    (target.tableNames.foldl Database.dropTable target)
  let indexed ← (origin.indexes.filter (·.name ≠ "backup_pair")).foldlM Database.createIndex tabled
  -- a view or a trigger does not match the pattern
  guard (origin.others.filter (· ≠ "backup_pair") = [])
  some indexed

/-- What may happen to the operations before the commit: nothing, an exception, or the end of the process
    after it has created some of the files. -/
inductive Interruption where
  | none
  | raised
  | killed (created : Role → Bool)

/-- How a restoration ends. -/
inductive Outcome where
  | restored
  | failed (code : String)
  | killed
  deriving DecidableEq

section Restore

variable (env : Environment) (dir : Option Directory) (overlapping : Role → Bool)
  (destinations : Role → Option Database) (force : Bool) (interruption : Interruption)

/-- What the transaction of `restore_pair` commits. -/
def plan (dir : Directory) : Option (Role → Database) := do
  guard (!overlapping .tenant)
  let tenant ← env.validate dir .tenant
  guard (!overlapping .control)
  let control ← env.validate dir .control
  let tenant' ← transfer tenant ((destinations .tenant).getD {})
  let control' ← transfer control ((destinations .control).getD {})
  some fun
    | .tenant => tenant'
    | .control => control'

/-- `restore_pair`, and the destinations after it. New files that a killed process leaves behind are
    empty. -/
def restorePair : Outcome × (Role → Option Database) :=
  if ((destinations .tenant).isSome || (destinations .control).isSome) && !force then
    (.failed "restore_destination_exists", destinations)
  else
    match dir with
    | none => (.failed "backup_not_found", destinations)
    | some dir =>
      match interruption, plan env overlapping destinations dir with
      | .killed created, _ =>
        (.killed, fun role => if created role then some ((destinations role).getD {}) else
          destinations role)
      | .raised, _ => (.failed "restore_pair_failed", destinations)
      | .none, none => (.failed "restore_pair_failed", destinations)
      | .none, some restored => (.restored, fun role => some (restored role))

end Restore

/-! ## A copy is the database

Tables are dropped, created and filled one after the other; the induction is over the list of
tables, and says what is there before and behind the one at hand. -/

namespace Database

/-- Names are given once, and an index is on a table. -/
structure WellFormed (db : Database) : Prop where
  nodup : db.names.Nodup
  indexed : ∀ i ∈ db.indexes, i.table ∈ db.tableNames

variable {db : Database}

theorem mem_tableNames {t : Table} (ht : t ∈ db.tables) : t.name ∈ db.tableNames := List.mem_map_of_mem ht

theorem wellFormed_empty : ({} : Database).WellFormed := ⟨List.nodup_nil, by simp⟩

theorem tables_foldl_dropTable (names : List String) (db : Database) :
    (names.foldl dropTable db).tables = db.tables.filter (·.name ∉ names) := by
  induction names generalizing db with
  | nil => simp
  | cons name names ih =>
    rw [List.foldl_cons, ih, dropTable, List.filter_filter]
    exact List.filter_congr fun t _ => by simp [Bool.and_comm]

theorem indexes_foldl_dropTable (names : List String) (db : Database) :
    (names.foldl dropTable db).indexes = db.indexes.filter (·.table ∉ names) := by
  induction names generalizing db with
  | nil => simp
  | cons name names ih =>
    rw [List.foldl_cons, ih, dropTable, List.filter_filter]
    exact List.filter_congr fun i _ => by simp [Bool.and_comm]

theorem others_foldl_dropTable (names : List String) (db : Database) :
    (names.foldl dropTable db).others = db.others := by
  induction names generalizing db with
  | nil => rfl
  | cons name names ih => rw [List.foldl_cons, ih, dropTable]

/-- Without its tables a database is empty. -/
theorem foldl_dropTable_tableNames (h : db.WellFormed) (hothers : db.others = []) :
    db.tableNames.foldl dropTable db = {} := by
  have htables : (db.tableNames.foldl dropTable db).tables = [] := by
    rw [tables_foldl_dropTable, List.filter_eq_nil_iff]
    intro t ht
    simpa using mem_tableNames ht
  have hindexes : (db.tableNames.foldl dropTable db).indexes = [] := by
    rw [indexes_foldl_dropTable, List.filter_eq_nil_iff]
    intro i hi
    simpa using h.indexed i hi
  have hothers' : (db.tableNames.foldl dropTable db).others = [] := by
    rw [others_foldl_dropTable, hothers]
  cases hdropped : db.tableNames.foldl dropTable db
  simp_all

theorem foldlM_createTable {ts : List Table} (hnew : ∀ t ∈ ts, t.name ∉ db.names)
    (hnodup : (ts.map (·.name)).Nodup) :
    ts.foldlM createTable db = some { db with tables := db.tables ++ ts } := by
  induction ts generalizing db with
  | nil => simp
  | cons t ts ih =>
    obtain ⟨ht, hnodup'⟩ := List.nodup_cons.1 hnodup
    rw [List.foldlM_cons, createTable, if_neg (hnew t List.mem_cons_self)]
    refine (@ih { db with tables := db.tables ++ [t] } (fun u hu => ?_) hnodup').trans ?_
    · have hold := hnew u (List.mem_cons_of_mem _ hu)
      have hne : u.name ≠ t.name := by
        intro heq
        exact ht (List.mem_map.2 ⟨u, hu, heq⟩)
      simp_all [names, tableNames]
    · simp

theorem foldlM_createIndex {is : List Index}
    (hnew : ∀ i ∈ is, i.name ∉ db.names ∧ i.table ∈ db.tableNames) (hnodup : (is.map (·.name)).Nodup) :
    is.foldlM createIndex db = some { db with indexes := db.indexes ++ is } := by
  induction is generalizing db with
  | nil => simp
  | cons i is ih =>
    obtain ⟨hi, hnodup'⟩ := List.nodup_cons.1 hnodup
    obtain ⟨hname, htable⟩ := hnew i List.mem_cons_self
    rw [List.foldlM_cons, createIndex, if_neg (by simp [hname, htable])]
    refine (@ih { db with indexes := db.indexes ++ [i] } (fun j hj => ?_) hnodup').trans ?_
    · obtain ⟨hold, htable'⟩ := hnew j (List.mem_cons_of_mem _ hj)
      have hne : j.name ≠ i.name := by
        intro heq
        exact hi (List.mem_map.2 ⟨j, hj, heq⟩)
      refine ⟨?_, htable'⟩
      simp_all [names, tableNames]
    · simp

theorem find?_append_mark (hmarked : "backup_pair" ∉ db.names) (version : String) (role : Role) :
    (db.tables ++ [markTable version role]).find? (·.name = "backup_pair") =
    some (markTable version role) := by
  have hnone : db.tables.find? (·.name = "backup_pair") = none := by
    rw [List.find?_eq_none]
    intro t ht hname
    refine hmarked (List.mem_append_left _ (List.mem_append_left _ ?_))
    have hname' : t.name = "backup_pair" := by simpa using hname
    exact hname' ▸ mem_tableNames ht
  rw [List.find?_append, hnone]
  rfl

end Database

/-- The database of a file of a pair. -/
def mark (version : String) (role : Role) (db : Database) : Database :=
  { db with tables := db.tables ++ [markTable version role] }

namespace Environment

/-- A database that the migrations made, and that is no copy in a backup. -/
structure Migrated (env : Environment) (role : Role) (db : Database) : Prop where
  wellFormed : db.WellFormed
  others : db.others = []
  unmarked : "backup_pair" ∉ db.names
  ledger : ∃ versions, db.versions = some versions ∧ env.LedgerMatches role versions = true

variable {env : Environment} {role : Role} {db : Database}

theorem createTable_markTable (h : env.Migrated role db) (version : String) (role' : Role) :
    db.createTable (markTable version role') = some (mark version role' db) :=
  if_neg h.unmarked

theorem select_mark (h : env.Migrated role db) (version : String) (role' : Role) :
    (mark version role' db).select "backup_pair" = some [[.text version, .text role'.name]] := by
  rw [Database.select, mark, Database.find?_append_mark h.unmarked]
  rfl

theorem versions_mark {versions : List ℤ} (h : db.versions = some versions) (version : String)
    (role' : Role) : (mark version role' db).versions = some versions := by
  obtain ⟨rows, hrows, hversions⟩ := Option.map_eq_some_iff.1 h
  obtain ⟨t, ht, hrows⟩ := Option.map_eq_some_iff.1 hrows
  have hselect : (mark version role' db).select "schema_migrations" = some rows := by
    rw [Database.select, mark, List.find?_append, ht, Option.some_or, Option.map_some, hrows]
  rw [Database.versions, hselect, Option.map_some, hversions]

/-- **A copy is the database.** What a backup took of a database is restored as it was, whatever is
    there. -/
theorem transfer_mark (h : env.Migrated role db) (version : String) (role' : Role) {target : Database}
    (htarget : target.WellFormed) (hothers : target.others = []) :
    transfer (mark version role' db) target = some db := by
  have hnodup := h.wellFormed.nodup
  have hunmarked := h.unmarked
  simp only [Database.names, h.others, List.append_nil] at hnodup hunmarked
  obtain ⟨htables, hindexes, hdisjoint⟩ := List.nodup_append.1 hnodup
  simp only [List.mem_append, not_or] at hunmarked
  have hkept : (mark version role' db).tables.filter (·.name ≠ "backup_pair") = db.tables := by
    rw [mark, List.filter_append, List.filter_eq_self.2]
    · simp [markTable]
    · intro t ht
      have hne : t.name ≠ "backup_pair" := fun heq => hunmarked.1 (heq ▸ Database.mem_tableNames ht)
      simpa using hne
  have hkept' : (mark version role' db).indexes.filter (·.name ≠ "backup_pair") = db.indexes := by
    rw [mark, List.filter_eq_self.2]
    intro i hi
    have hne : i.name ≠ "backup_pair" := fun heq => hunmarked.2 (List.mem_map.2 ⟨i, hi, heq⟩)
    simpa using hne
  have hindex : db.indexes.foldlM Database.createIndex { tables := db.tables } =
      some { tables := db.tables, indexes := db.indexes } := by
    refine Database.foldlM_createIndex (fun i hi => ⟨?_, h.wellFormed.indexed i hi⟩) hindexes
    intro hname
    simp only [Database.names, Database.tableNames, List.map_nil, List.append_nil] at hname
    exact hdisjoint _ hname _ (List.mem_map.2 ⟨i, hi, rfl⟩) rfl
  unfold transfer
  rw [Database.foldl_dropTable_tableNames htarget hothers, hkept, hkept',
    Database.foldlM_createTable (by simp [Database.names, Database.tableNames]) htables]
  simp only [Option.bind_eq_bind, Option.bind_some, List.nil_append]
  rw [hindex]
  have hdb : db = { tables := db.tables, indexes := db.indexes } := by
    cases db
    simpa using h.others
  simp [mark, h.others, ← hdb]

end Environment

end Backups

end AdaptiveLlm
