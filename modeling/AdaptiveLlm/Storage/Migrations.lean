import AdaptiveLlm.Python.Text
import Mathlib.Data.List.Nodup
import Mathlib.Data.List.Sort
import Mathlib.Logic.Relation

set_option autoImplicit false

/-! # Migrations

`migrate` (`storage/migrations.py`) applies the files of a directory that the ledger does not have, in the
order of their versions, and the whole call is one transaction. Each release has a directory of its own, to
which later releases add files of higher versions. A database meets releases in any order, older ones after
newer ones too, and a call may fail anywhere. What SQLite makes of a statement is a parameter.

A script runs on the connection that holds the ledger, so it can change the ledger as well:
`0007_registry.sql` of the control database deletes the versions 1, 2, 4 and 5, which an earlier layout had
left there and which no file of that directory has. Where the scripts spare the versions of their own
directory, an upgraded database is the one that a fresh installation makes.

A file whose version is in the ledger is passed over, whatever it says now, and one that is not is
applied, also where files of higher versions were applied before. What has to be shown is that
databases with different histories end up the same. Releases only add files of higher versions, so
under the condition on the scripts (`SparesLedger`) every database applies the files in one order,
each once. -/

namespace AdaptiveLlm

namespace Migrations

variable {σ : Type}

/-! ## Scripts and the ledger -/

/-- What a statement acts on: the contents of the database, and the versions in `schema_migrations`. -/
abbrev Tables (σ : Type) : Type := σ × List ℕ

/-- SQLite's view of statements, and what they do. -/
structure Sql (σ : Type) where
  /-- `sqlite3.complete_statement` -/
  complete : String → Bool
  execute : String → Tables σ → Option (Tables σ)

/-- A file `[0-9]*_*.sql` with its version and its lines. -/
structure MigrationFile where
  version : ℕ
  lines : List String
  deriving DecidableEq

/-- The table `schema_migrations`. -/
structure Ledger where
  /-- the column of the first implementation -/
  tenantId : Bool := false
  versions : List ℕ := []

/-- A database, which has no ledger before the first call. -/
structure Database (σ : Type) where
  contents : σ
  ledger : Option Ledger := none

namespace Database

/-- The versions of the ledger, none where there is no ledger. -/
def versions (db : Database σ) : List ℕ := (db.ledger.map (·.versions)).getD []

/-- What a script works on: the contents and the ledger. -/
def tables (db : Database σ) : Tables σ := (db.contents, db.versions)

end Database

/-- The database as the call leaves it. -/
def Tables.database (tables : Tables σ) : Database σ where
  contents := tables.1
  ledger := some { versions := tables.2 }

section Migrate

variable (sql : Sql σ)

/-- The statements of a file, each executed at the line that completes it. -/
def runScript : List String → String → Tables σ → Option (Tables σ)
  | [], statement, tables => if Python.isBlank statement then some tables else none
  | line :: lines, statement, tables =>
    if sql.complete (statement ++ line) then
      (sql.execute (statement ++ line) tables).bind (runScript lines "")
    else runScript lines (statement ++ line) tables

/-- A file that is not recorded is executed and recorded; a version is a primary key. -/
def execute (tables : Tables σ) (f : MigrationFile) : Option (Tables σ) := do
  let (contents, versions) ← runScript sql f.lines "" tables
  if f.version ∈ versions then none else some (contents, versions ++ [f.version])

/-- One turn of the loop; `versions` were read before it. -/
def applyFile (versions : List ℕ) (tables : Tables σ) (f : MigrationFile) : Option (Tables σ) :=
  if f.version ∈ versions then some tables else execute sql tables f

/-- `migrate`; `none` is the error, after which the database is as it was. -/
def migrate (directory : List MigrationFile) (db : Database σ) : Option (Database σ) :=
  let files := directory.insertionSort fun f g => f.version ≤ g.version
  if ¬ (files.map (·.version)).Nodup then none
  else (files.foldlM (applyFile sql db.versions) db.tables).map Tables.database

end Migrate

/-! ## Releases

The directory of a release is a beginning of the list of all files. So what an older release applies
is a beginning of what a newer one does. -/

section Releases

variable (sql : Sql σ) {files : List MigrationFile}

/-- The files of all releases, in the order of their versions. -/
def Ordered (files : List MigrationFile) : Prop := files.Pairwise fun f g => f.version < g.version

/-- The scripts spare the ledger where it has versions of the files only. -/
def SparesLedger (files : List MigrationFile) : Prop :=
  ∀ f ∈ files, ∀ tables tables' : Tables σ, tables.2 ⊆ files.map (·.version) →
    runScript sql f.lines "" tables = some tables' → tables'.2 = tables.2

/-- The files are executed and recorded one after the other. -/
def install (files : List MigrationFile) (tables : Tables σ) : Option (Tables σ) :=
  files.foldlM (execute sql) tables

theorem install_append (files more : List MigrationFile) (tables : Tables σ) :
    install sql (files ++ more) tables = (install sql files tables).bind (install sql more) := by
  rw [install, List.foldlM_append]
  rfl

theorem nodup_versions (h : Ordered files) : (files.map (·.version)).Nodup :=
  List.pairwise_map.2 (h.imp fun hlt => hlt.ne)

theorem ordered_take (h : Ordered files) (n : ℕ) : Ordered (files.take n) :=
  h.sublist (List.take_sublist n files)

/-- A directory in whatever order its files are found. -/
theorem insertionSort_eq (h : Ordered files) {directory : List MigrationFile}
    (hperm : directory.Perm files) : directory.insertionSort (fun f g => f.version ≤ g.version) =
    files := by
  have hsorted := List.pairwise_insertionSort (fun f g : MigrationFile => f.version ≤ g.version) directory
  refine List.Perm.eq_of_pairwise ?_ hsorted (h.imp fun hlt => hlt.le)
    ((List.perm_insertionSort _ directory).trans hperm)
  intro f g hf hg hle hge
  have hf' : f ∈ files := hperm.subset ((List.perm_insertionSort _ directory).subset hf)
  exact List.inj_on_of_nodup_map (nodup_versions h) hf' hg (le_antisymm hle hge)

variable {sql}

/-- What a file that spares the ledger leaves there. -/
theorem execute_versions (h : SparesLedger sql files) {f : MigrationFile} (hf : f ∈ files)
    {tables tables' : Tables σ} (hversions : tables.2 ⊆ files.map (·.version))
    (hexecute : execute sql tables f = some tables') : tables'.2 = tables.2 ++ [f.version] := by
  unfold execute at hexecute
  obtain ⟨ran, hrun, hrecord⟩ := Option.bind_eq_some_iff.1 hexecute
  dsimp only at hrecord
  split at hrecord
  · cases hrecord
  · cases hrecord
    rw [h f hf tables ran hversions hrun]

theorem install_versions (h : SparesLedger sql files) {some_files : List MigrationFile}
    (hfiles : some_files ⊆ files) {tables tables' : Tables σ} (hversions : tables.2 ⊆ files.map (·.version))
    (hinstall : install sql some_files tables = some tables') :
    tables'.2 = tables.2 ++ some_files.map (·.version) := by
  induction some_files generalizing tables with
  | nil =>
    cases hinstall
    simp
  | cons f rest ih =>
    obtain ⟨hf, hrest⟩ := List.cons_subset.1 hfiles
    rw [install, List.foldlM_cons] at hinstall
    obtain ⟨next, hnext, hinstall⟩ := Option.bind_eq_some_iff.1 hinstall
    have hledger := execute_versions h hf hversions hnext
    have hversions' : next.2 ⊆ files.map (·.version) := by
      rw [hledger]
      exact List.append_subset.2 ⟨hversions, by simpa using ⟨f, hf, rfl⟩⟩
    rw [ih hrest hversions' hinstall, hledger, List.append_assoc]
    rfl

/-- The loop executes the files that were not in the ledger when it was read. -/
theorem foldlM_applyFile (versions : List ℕ) (files : List MigrationFile) (tables : Tables σ) :
    files.foldlM (applyFile sql versions) tables =
      install sql (files.filter (·.version ∉ versions)) tables := by
  induction files generalizing tables with
  | nil => rfl
  | cons f files ih =>
    rw [List.foldlM_cons, applyFile]
    by_cases hmem : f.version ∈ versions
    · rw [if_pos hmem, List.filter_cons_of_neg (by simpa using hmem)]
      exact ih tables
    · rw [if_neg hmem, List.filter_cons_of_pos (by simpa using hmem), install, List.foldlM_cons]
      exact congrArg _ (funext ih)

/-- What the ledger of one release leaves of another. -/
theorem filter_take (h : Ordered files) (n m : ℕ) :
    (files.take n).filter (·.version ∉ (files.take m).map (·.version)) = (files.take n).drop m := by
  have happlied : ((files.take n).take m).filter (·.version ∉ (files.take m).map (·.version)) = [] := by
    rw [List.filter_eq_nil_iff]
    intro f hf
    rw [List.take_take] at hf
    have hf' : f ∈ files.take m := (List.take_sublist_take_left (Nat.min_le_left m n)).subset hf
    simp only [decide_eq_true_eq, not_not]
    exact List.mem_map.2 ⟨f, hf', rfl⟩
  have hnew : ((files.take n).drop m).filter (·.version ∉ (files.take m).map (·.version)) =
      (files.take n).drop m := by
    rw [List.filter_eq_self]
    intro f hf
    rw [List.drop_take] at hf
    have hf' : f ∈ files.drop m := (List.take_sublist _ _).subset hf
    have hsplit : Ordered (files.take m ++ files.drop m) := by rwa [List.take_append_drop]
    simp only [decide_eq_true_eq]
    intro hin
    obtain ⟨g, hg, hversion⟩ := List.mem_map.1 hin
    exact absurd hversion ((List.pairwise_append.1 hsplit).2.2 g hg f hf').ne
  have hsplit : (files.take n).take m ++ (files.take n).drop m = files.take n := List.take_append_drop m _
  rw [← hsplit, List.filter_append, happlied, hnew, List.nil_append, hsplit]

theorem take_append_drop_take (n m : ℕ) : files.take m ++ (files.take n).drop m = files.take (max m n) := by
  rcases le_total n m with hle | hle
  · rw [List.drop_eq_nil_of_le ((List.length_take_le n files).trans hle), List.append_nil, max_eq_left hle]
  · have hsplit := List.take_append_drop m (files.take n)
    rw [List.take_take, min_eq_left hle] at hsplit
    rw [hsplit, max_eq_right hle]

/-- A call of one release on a database that another has migrated. -/
theorem migrate_release (h : Ordered files) {db : Database σ} {m n : ℕ} {directory : List MigrationFile}
    (hversions : db.versions = (files.take m).map (·.version)) (hperm : directory.Perm (files.take n)) :
    migrate sql directory db =
      (install sql ((files.take n).drop m) db.tables).map Tables.database := by
  have hsorted := insertionSort_eq (ordered_take h n) hperm
  simp only [migrate, hsorted, nodup_versions (ordered_take h n), not_true_eq_false, if_false]
  rw [foldlM_applyFile, hversions, filter_take h]

end Releases

/-! ## A database between releases -/

section Runs

variable {sql : Sql σ} {files : List MigrationFile}

/-- A call of a release that succeeds; one that fails changes nothing. -/
def Upgrade (sql : Sql σ) (files : List MigrationFile) (db db' : Database σ) : Prop :=
  ∃ (n : ℕ) (directory : List MigrationFile), directory.Perm (files.take n) ∧
    migrate sql directory db = some db'

/-- What the files of a release are recorded as in a new database. -/
theorem versions_of_install (h : SparesLedger sql files) {c₀ : σ} {db : Database σ} {m : ℕ}
    (hinstall : install sql (files.take m) (c₀, []) = some db.tables) :
    db.versions = (files.take m).map (·.version) := by
  have hledger := install_versions h (List.take_subset m files) (List.nil_subset _) hinstall
  simpa [Database.tables] using hledger

/-- **An upgraded database is an installed one.** Where the scripts spare the versions of their own files, a
    database that has met any releases in any order, with calls that failed in between, is what one release
    makes of a new one: its files are recorded, each executed once and in order, and this or a later release
    does to both the same. -/
theorem upgrade_eq_install (h : Ordered files) (hspares : SparesLedger sql files) {c₀ : σ} {db : Database σ}
    (hrun : Relation.ReflTransGen (Upgrade sql files) { contents := c₀ } db) :
    ∃ m, db.versions = (files.take m).map (·.version) ∧
      install sql (files.take m) (c₀, []) = some db.tables ∧
      ∀ n ≥ m, ∀ directory : List MigrationFile, directory.Perm (files.take n) →
        migrate sql directory db = migrate sql directory { contents := c₀ } := by
  have hinstalled : ∃ m, install sql (files.take m) (c₀, []) = some db.tables := by
    induction hrun with
    | refl => exact ⟨0, rfl⟩
    | tail _ hstep ih =>
      obtain ⟨m, hinstall⟩ := ih
      obtain ⟨n, directory, release, applied⟩ := hstep
      rw [migrate_release h (versions_of_install hspares hinstall) release] at applied
      obtain ⟨tables, hscripts, rfl⟩ := Option.map_eq_some_iff.1 applied
      refine ⟨max m n, ?_⟩
      rw [← take_append_drop_take, install_append, hinstall, Option.bind_some, hscripts]
      rfl
  obtain ⟨m, hinstall⟩ := hinstalled
  have hm := versions_of_install hspares hinstall
  refine ⟨m, hm, hinstall, fun n hn directory hperm => ?_⟩
  have hfresh : ({ contents := c₀ } : Database σ).versions = (files.take 0).map (·.version) := rfl
  have hscripts : install sql (files.take n) (c₀, []) = install sql ((files.take n).drop m) db.tables := by
    have hsplit : files.take m ++ (files.take n).drop m = files.take n := by
      rw [take_append_drop_take, max_eq_right hn]
    rw [← hsplit, install_append, hinstall, Option.bind_some, hsplit]
  rw [migrate_release h hm hperm, migrate_release h hfresh hperm, List.drop_zero, ← hscripts]
  rfl

end Runs

/-! A script that cleans the ledger of an earlier layout. -/

namespace Samples

/-- The statement of `0007_registry.sql`. -/
def cleaning : String := "DELETE FROM schema_migrations WHERE version IN (1, 2, 4, 5);"

/-- Statements are lines, and the contents are the statements that were executed. -/
def logging : Sql (List String) where
  complete _ := true
  execute statement tables :=
    some (tables.1 ++ [statement],
      if statement = cleaning then tables.2.filter (· ∉ [1, 2, 4, 5]) else tables.2)

/-- A file that makes a table. -/
def outbox : MigrationFile := { version := 3, lines := ["CREATE TABLE outbox (event_id);"] }

/-- A file that makes a table and deletes from the ledger what is above it. -/
def registry : MigrationFile :=
  { version := 7, lines := [cleaning, "CREATE TABLE model_versions (version);"] }

theorem spares : SparesLedger logging [outbox, registry] := by
  have hfilter : ∀ versions : List ℕ, versions ⊆ [3, 7] → versions.filter (· ∉ [1, 2, 4, 5]) =
      versions := by
    intro versions hversions
    rw [List.filter_eq_self]
    intro version hversion
    have hmem : version ∈ [3, 7] := hversions hversion
    rcases List.mem_pair.1 hmem with rfl | rfl <;> rfl
  intro f hf tables tables' hversions hrun
  rcases List.mem_pair.1 hf with rfl | rfl
  · cases hrun
    rfl
  · cases hrun
    exact hfilter tables.2 hversions

end Samples

open Samples in
/-- A database of the first release is upgraded to what the second installs. -/
theorem registry_after_outbox : ∃ db, migrate logging [outbox] { contents := [] } = some db ∧
    migrate logging [registry, outbox] db = migrate logging [registry, outbox] { contents := [] } := by
  have hordered : Ordered [outbox, registry] := by
    unfold Ordered
    decide
  have houtbox : migrate logging [outbox] { contents := [] } =
      some { contents := outbox.lines, ledger := some { versions := [3] } } := rfl
  have hstep : Upgrade logging [outbox, registry] { contents := [] } _ :=
    ⟨1, [outbox], List.Perm.refl _, houtbox⟩
  obtain ⟨m, hm, -, hupgrade⟩ := upgrade_eq_install hordered spares (.single hstep)
  have hle : m ≤ 2 := by
    by_contra hlt
    rw [List.take_of_length_le (by simp; omega)] at hm
    cases hm
  exact ⟨_, houtbox, hupgrade 2 hle _ (List.Perm.swap outbox registry [])⟩

end Migrations

end AdaptiveLlm
