import Mathlib.Data.List.DropRight
import Mathlib.Data.List.Lex
import Mathlib.Data.List.Sort
import Mathlib.Data.Prod.Lex
import Tonbankcard.Batch
import Tonbankcard.JsNumbers

/-! The two migration runners of the indexer, over one directory of migrations and the bookkeeping
table `schema_migrations`. The database engine, the digest and the clock are parameters. -/
namespace Tonbankcard.Migrator

open EcmaScript Batch

section Versions

/-- The digits before the underscore of a migration's directory. -/
abbrev Version := {digits : JsString // 3 ≤ digits.length ∧ ∀ unit ∈ digits, isDigit unit = true}

def Version.number (version : Version) : ℕ := fixedValue 10 version.1

/-- The comparison of two texts of digits, unit by unit. -/
def localeCompare (a b : JsString) : ℤ :=
  let a := a.map UInt16.toNat
  let b := b.map UInt16.toNat
  if a < b then -1 else if b < a then 1 else 0

def compareMigrationVersions (a b : Version) : ℤ :=
  if a.number < b.number then -1
  else if a.number > b.number then 1
  else localeCompare a.1 b.1

/-- `Array.prototype.sort` with that comparison. -/
def sortByVersion {α : Type*} (version : α → Version) (l : List α) : List α :=
  l.insertionSort fun a b => compareMigrationVersions (version a) (version b) ≤ 0

/-- What the comparison compares. -/
def Version.rank (version : Version) : ℕ ×ₗ List ℕ :=
  toLex (version.number,version.1.map UInt16.toNat)

theorem rank_injective : Function.Injective Version.rank := fun a b same => by
  have pair := toLex.injective same
  exact Subtype.ext (List.map_injective_iff.mpr (fun _ _ => UInt16.toNat.inj) (Prod.mk.inj pair).2)

theorem compareMigrationVersions_le (a b : Version) :
    compareMigrationVersions a b ≤ 0 ↔ a.rank ≤ b.rank := by
  rw [Version.rank,Version.rank,Prod.Lex.toLex_le_toLex,compareMigrationVersions]
  rcases Nat.lt_trichotomy a.number b.number with less | same | more
  · simp [less]
  · rw [if_neg (by omega),if_neg (by omega),localeCompare]
    rcases lt_trichotomy (a.1.map UInt16.toNat) (b.1.map UInt16.toNat) with less | equal | more
    · simp [less,same,less.le]
    · simp [equal,same]
    · simp [more,same,more.not_gt,more.not_ge]
  · simp [more,more.not_gt,more.ne']

variable {α β : Type*} (version : α → Version)

theorem sortByVersion_perm (l : List α) : (sortByVersion version l).Perm l :=
  List.perm_insertionSort _ l

theorem sortByVersion_sorted (l : List α) :
    (sortByVersion version l).Pairwise fun a b => (version a).rank ≤ (version b).rank := by
  have total : Std.Total fun a b : α => compareMigrationVersions (version a) (version b) ≤ 0 :=
    ⟨fun a b => by
      simpa only [compareMigrationVersions_le] using le_total (version a).rank (version b).rank⟩
  have trans : IsTrans α fun a b => compareMigrationVersions (version a) (version b) ≤ 0 :=
    ⟨fun a b c => by
      simpa only [compareMigrationVersions_le] using
        le_trans (a := (version a).rank) (b := (version b).rank)⟩
  refine (List.pairwise_insertionSort
    (fun a b => compareMigrationVersions (version a) (version b) ≤ 0) l).imp ?_
  exact fun le => (compareMigrationVersions_le _ _).mp le

theorem sortByVersion_map (f : α → β) (key : β → Version) (l : List α) :
    (sortByVersion (key ∘ f) l).map f = sortByVersion key (l.map f) :=
  List.map_insertionSort _ _ f l fun _ _ _ _ => Iff.rfl

end Versions

section Directory

inductive Dialect where
  | sqlite | postgres
  deriving DecidableEq

def Dialect.text : Dialect → JsString
  | .sqlite => js "sqlite"
  | .postgres => js "postgres"

inductive Direction where
  | up | down

def Direction.text : Direction → JsString
  | .up => js "up"
  | .down => js "down"

/-- An entry of the directory of the migrations, with the scripts that it holds. -/
structure Entry where
  name : JsString
  isDirectory : Bool
  file : Direction → Dialect → Option JsString

/-- A migration, with the scripts in its directory. -/
structure Migration where
  version : Version
  name : JsString
  file : Direction → Dialect → Option JsString

/-- None is a directory that does not exist. -/
abbrev Directory := Option (List Entry)

def isAlphaNumeric (unit : UInt16) : Bool :=
  isDigit unit || (65 ≤ unit && unit ≤ 90) || (97 ≤ unit && unit ≤ 122)

/-- `MIGRATION_DIR_RE`. -/
def migrationDirRe (name : JsString) : Option (Version × JsString) :=
  if long : 3 ≤ (name.takeWhile isDigit).length then
    match name.dropWhile isDigit with
    | 95 :: first :: rest =>
      if isAlphaNumeric first && rest.all fun unit => isAlphaNumeric unit || unit = 95 || unit = 45
      then some (⟨name.takeWhile isDigit,long,fun _ => List.mem_takeWhile_imp⟩,first :: rest)
      else none
    | _ => none
  else none

/-- The migration that an entry holds. The others are skipped. -/
def Entry.migration? (entry : Entry) : Option Migration :=
  if entry.isDirectory then
    (migrationDirRe entry.name).map fun (version,name) => ⟨version,name,entry.file⟩
  else none

/-- The loop over the sorted versions, with those seen so far. -/
def rejectDuplicates (seen : List Version) : List Version → Except JsString Unit
  | [] => .ok ()
  | version :: rest =>
    if version ∈ seen then .error (js "Duplicate migration version: " ++ version.1)
    else rejectDuplicates (version :: seen) rest

def discover : Directory → Except JsString (List Migration)
  | none => .ok []
  | some entries => do
    let migrations := sortByVersion Migration.version (entries.filterMap Entry.migration?)
    rejectDuplicates [] (migrations.map Migration.version)
    return migrations

def Migration.readSql (migration : Migration) (direction : Direction) (dialect : Dialect) :
    Except JsString JsString :=
  match migration.file direction dialect with
  | some sql => .ok sql
  | none => .error (js "Migration " ++ migration.version.1 ++ js "_" ++ migration.name ++
      js " is missing " ++ direction.text ++ js "." ++ dialect.text ++ js ".sql")

/-- A migration as the synchronous runner knows it, with the text at `upSqlPath`. -/
structure DiscoveredMigration where
  version : Version
  name : JsString
  upSql : JsString

/-- The loop over the entries of the directory. -/
def discoverEntries : List Entry → Except JsString (List DiscoveredMigration)
  | [] => .ok []
  | entry :: entries =>
    match entry.migration? with
    | none => discoverEntries entries
    | some migration =>
      match migration.file .up .sqlite with
      | none => .error (js "Migration " ++ entry.name ++ js " is missing up.sqlite.sql")
      | some sql => do
        return ⟨migration.version,migration.name,sql⟩ :: (← discoverEntries entries)

def discoverSqliteMigrations : Directory → Except JsString (List DiscoveredMigration)
  | none => .ok []
  | some entries => do
    let result := sortByVersion DiscoveredMigration.version (← discoverEntries entries)
    rejectDuplicates [] (result.map DiscoveredMigration.version)
    return result

end Directory

section Runners

/-- A row of the table `schema_migrations`. -/
structure AppliedMigration where
  version : Version
  name : JsString
  appliedAt : ℕ
  checksum : JsString
  deriving DecidableEq

/-- The tables of the database, with the bookkeeping rows in the order they were inserted. The
version is their primary key. -/
@[ext] structure Database (S : Type) where
  schema : S
  rows : List AppliedMigration
  key : (rows.map AppliedMigration.version).Nodup

variable {S : Type}

def Database.versions (db : Database S) : List Version := db.rows.map AppliedMigration.version

def Database.insert (db : Database S) (row : AppliedMigration) (conflict : JsString) :
    Except JsString (Database S) :=
  if fresh : row.version ∉ db.versions then
    .ok ⟨db.schema,db.rows ++ [row],by
      rw [List.map_append]
      exact List.nodup_append.mpr ⟨db.key,List.nodup_singleton _,fun version member other same =>
        fun equal => fresh (List.mem_singleton.mp same ▸ equal ▸ member)⟩⟩
  else .error conflict

def Database.delete (db : Database S) (version : Version) : Database S :=
  ⟨db.schema,db.rows.filter fun row => row.version ≠ version,
    db.key.sublist (List.filter_sublist.map _)⟩

/-- The rows by `ORDER BY version ASC`, sorted by version. -/
def Database.listApplied (db : Database S) : List AppliedMigration :=
  sortByVersion AppliedMigration.version
    (db.rows.insertionSort fun a b => localeCompare a.version.1 b.version.1 ≤ 0)

/-- What is outside the runners: a script on the tables, the digest, the clock in seconds when a
migration is applied, and the error of a row whose version is there. -/
structure Engine (S : Type) where
  exec : JsString → S → Except JsString S
  sha256 : JsString → JsString
  now : Version → ℕ
  conflict : JsString

namespace Engine

variable (engine : Engine S)

/-- A script and its bookkeeping in one transaction. An error leaves the database as it was. -/
def transaction (sql : JsString) (bookkeeping : Database S → Except JsString (Database S))
    (db : Database S) : Except JsString (Database S) := do
  bookkeeping { db with schema := ← engine.exec sql db.schema }

def record (version : Version) (name sql : JsString) : AppliedMigration :=
  ⟨version,name,engine.now version,engine.sha256 sql⟩

/-- The body of the loop of `up`. -/
def applyMigration (dialect : Dialect) (migration : Migration) (db : Database S) :
    Except JsString (AppliedMigration × Database S) := do
  let sql ← migration.readSql .up dialect
  let row := engine.record migration.version migration.name sql
  return (row,← engine.transaction sql (·.insert row engine.conflict) db)

def up (dialect : Dialect) (dir : Directory) (db : Database S) :
    Outcome AppliedMigration JsString (Database S) :=
  match discover dir with
  | .error error => ⟨[],some error,db⟩
  | .ok all =>
    let appliedVersions := db.listApplied.map AppliedMigration.version
    runBatch (engine.applyMigration dialect)
      (all.filter fun migration => migration.version ∉ appliedVersions) db

/-- The body of the loop of `down`. -/
def rollBackMigration (dialect : Dialect) (all : List Migration) (row : AppliedMigration)
    (db : Database S) : Except JsString (AppliedMigration × Database S) :=
  match all.find? fun migration => migration.version = row.version with
  | none => .error (js "Cannot roll back " ++ row.version.1 ++
      js ": migration files no longer exist on disk")
  | some migration => do
    let sql ← migration.readSql .down dialect
    return (row,← engine.transaction sql (fun db => .ok (db.delete migration.version)) db)

def down (dialect : Dialect) (dir : Directory) (steps : ℤ) (db : Database S) :
    Outcome AppliedMigration JsString (Database S) :=
  if steps < 1 then ⟨[],some (js "steps must be >= 1"),db⟩
  else
    let applied := db.listApplied
    if applied.isEmpty then ⟨[],none,db⟩
    else
      match discover dir with
      | .error error => ⟨[],some error,db⟩
      | .ok all =>
        let toRollback := (applied.rtake steps.toNat).reverse
        runBatch (engine.rollBackMigration dialect all) toRollback db

/-- The body of the loop of the synchronous runner. -/
def applySqliteMigration (migration : DiscoveredMigration) (db : Database S) :
    Except JsString (JsString × Database S) :=
  let row := engine.record migration.version migration.name migration.upSql
  let fullName := migration.version.1 ++ js "_" ++ migration.name
  match engine.transaction migration.upSql (·.insert row engine.conflict) db with
  | .ok next => .ok (fullName,next)
  | .error message => .error (js "Failed to apply migration " ++ fullName ++ js ": " ++ message)

/-- The loop of the synchronous runner. -/
def applyDiscovered (appliedSet : List Version) :
    List DiscoveredMigration → Database S → Outcome JsString JsString (Database S)
  | [], db => ⟨[],none,db⟩
  | migration :: rest, db =>
    if migration.version ∈ appliedSet then applyDiscovered appliedSet rest db
    else
      match engine.applySqliteMigration migration db with
      | .error error => ⟨[],some error,db⟩
      | .ok (name,next) =>
        let out := applyDiscovered appliedSet rest next
        { out with done := name :: out.done }

def applySqliteMigrationsSync (dir : Directory) (db : Database S) :
    Outcome JsString JsString (Database S) :=
  match discoverSqliteMigrations dir with
  | .error error => ⟨[],some error,db⟩
  | .ok discovered => engine.applyDiscovered db.versions discovered db

end Engine

end Runners

section Discovery

/-- The migrations in the directory. -/
def onDisk (dir : Directory) : List Migration := (dir.getD []).filterMap Entry.migration?

theorem rejectDuplicates_ok (seen versions : List Version) :
    rejectDuplicates seen versions = .ok () ↔
      versions.Nodup ∧ ∀ version ∈ versions, version ∉ seen := by
  induction versions generalizing seen with
  | nil => simp [rejectDuplicates]
  | cons version rest ih =>
    rw [rejectDuplicates]
    split
    · next twice => simp [twice]
    · next once =>
      simp only [ih,List.mem_cons,List.nodup_cons,forall_eq_or_imp,once,not_false_eq_true,
        true_and,not_or,forall_and]
      constructor
      · rintro ⟨nodup,fresh,apart⟩
        exact ⟨⟨fun member => fresh version member rfl,nodup⟩,apart⟩
      · rintro ⟨⟨fresh,nodup⟩,apart⟩
        exact ⟨nodup,fun other member same => fresh (same ▸ member),apart⟩

theorem discover_ok (dir : Directory) (all : List Migration) :
    discover dir = .ok all ↔
      ((onDisk dir).map Migration.version).Nodup ∧
        all = sortByVersion Migration.version (onDisk dir) := by
  cases dir with
  | none => simp [discover,onDisk,sortByVersion,eq_comm]
  | some entries =>
    have sorted := ((sortByVersion_perm Migration.version (onDisk (some entries))).map
      Migration.version).nodup_iff
    have checked := rejectDuplicates_ok []
      ((sortByVersion Migration.version (onDisk (some entries))).map Migration.version)
    simp only [List.not_mem_nil,not_false_eq_true,implies_true,and_true,sorted] at checked
    rw [← checked]
    simp only [discover,onDisk,Option.getD_some,bind,Except.bind,pure,Except.pure]
    cases rejectDuplicates [] ((sortByVersion Migration.version
      (entries.filterMap Entry.migration?)).map Migration.version) with
    | error e => simp
    | ok => simp [eq_comm]

/-- A migration as the synchronous runner reads it. -/
def Migration.discovered (migration : Migration) : DiscoveredMigration :=
  ⟨migration.version,migration.name,(migration.file .up .sqlite).getD []⟩

theorem discoverEntries_ok (entries : List Entry)
    (scripts : ∀ migration ∈ entries.filterMap Entry.migration?,
      migration.file .up .sqlite ≠ none) :
    discoverEntries entries =
      .ok ((entries.filterMap Entry.migration?).map Migration.discovered) := by
  induction entries with
  | nil => rfl
  | cons entry entries ih =>
    cases holds : entry.migration? with
    | none =>
      rw [List.filterMap_cons_none holds] at scripts ⊢
      simp only [discoverEntries,holds,ih scripts]
    | some migration =>
      rw [List.filterMap_cons_some holds,List.forall_mem_cons] at scripts
      obtain ⟨sql,script⟩ := Option.ne_none_iff_exists'.mp scripts.1
      simp only [discoverEntries,holds,script,ih scripts.2,List.filterMap_cons_some holds,
        List.map_cons,Migration.discovered,Option.getD_some,bind,Except.bind,pure,Except.pure]

theorem discoverEntries_error (entries : List Entry)
    (missing : ∃ migration ∈ entries.filterMap Entry.migration?,
      migration.file .up .sqlite = none) : ∃ e, discoverEntries entries = .error e := by
  induction entries with
  | nil => simp at missing
  | cons entry entries ih =>
    cases holds : entry.migration? with
    | none =>
      rw [List.filterMap_cons_none holds] at missing
      simpa only [discoverEntries,holds] using ih missing
    | some migration =>
      cases script : migration.file .up .sqlite with
      | none => simp [discoverEntries,holds,script]
      | some sql =>
        rw [List.filterMap_cons_some holds,List.exists_mem_cons_iff] at missing
        obtain ⟨e,error⟩ := ih (missing.resolve_left (by simp [script]))
        exact ⟨e,by simp [discoverEntries,holds,script,error,bind,Except.bind]⟩

/-- With the scripts of SQLite in every directory, both runners discover the same. -/
theorem discoverSqliteMigrations_eq (dir : Directory)
    (scripts : ∀ migration ∈ onDisk dir, migration.file .up .sqlite ≠ none) :
    discoverSqliteMigrations dir = (discover dir).map (List.map Migration.discovered) := by
  cases dir with
  | none => rfl
  | some entries =>
    have sorted := sortByVersion_map Migration.discovered DiscoveredMigration.version
      (entries.filterMap Entry.migration?)
    have same : DiscoveredMigration.version ∘ Migration.discovered = Migration.version := rfl
    rw [same] at sorted
    simp only [discoverSqliteMigrations,discover,discoverEntries_ok entries scripts,← sorted,
      List.map_map,same,bind,Except.bind,pure,Except.pure]
    cases rejectDuplicates [] ((sortByVersion Migration.version
      (entries.filterMap Entry.migration?)).map Migration.version) with
    | error e => rfl
    | ok => rfl

theorem discoverSqliteMigrations_error (dir : Directory)
    (missing : ∃ migration ∈ onDisk dir, migration.file .up .sqlite = none) :
    ∃ e, discoverSqliteMigrations dir = .error e := by
  cases dir with
  | none => simp [onDisk] at missing
  | some entries =>
    obtain ⟨e,error⟩ := discoverEntries_error entries missing
    exact ⟨e,by simp [discoverSqliteMigrations,error,bind,Except.bind]⟩

end Discovery

section Steps

variable {S : Type}

theorem listApplied_perm (db : Database S) : db.listApplied.Perm db.rows :=
  (sortByVersion_perm _ _).trans (List.perm_insertionSort _ _)

theorem listApplied_versions (db : Database S) (version : Version) :
    version ∈ db.listApplied.map AppliedMigration.version ↔ version ∈ db.versions :=
  ((listApplied_perm db).map _).mem_iff

theorem insert_ok (db : Database S) (row : AppliedMigration) (conflict : JsString)
    (next : Database S) : db.insert row conflict = .ok next ↔
      row.version ∉ db.versions ∧ next.schema = db.schema ∧ next.rows = db.rows ++ [row] := by
  rw [Database.insert]
  split
  · next fresh =>
    rw [Except.ok.injEq,Database.ext_iff]
    exact ⟨fun same => ⟨fresh,same.1.symm,same.2.symm⟩,fun same => ⟨same.2.1.symm,same.2.2.symm⟩⟩
  · next taken => exact iff_of_false nofun fun same => taken same.1

namespace Engine

variable (engine : Engine S)

/-- A migration in one transaction with its bookkeeping row. -/
def Applies (dialect : Dialect) (migration : Migration) (db : Database S) (row : AppliedMigration)
    (next : Database S) : Prop :=
  ∃ sql, migration.file .up dialect = some sql ∧ engine.exec sql db.schema = .ok next.schema ∧
    row = engine.record migration.version migration.name sql ∧ next.rows = db.rows ++ [row]

/-- The way back of an applied migration in one transaction with its bookkeeping row. -/
def Reverts (dialect : Dialect) (all : List Migration) (row : AppliedMigration)
    (db next : Database S) : Prop :=
  ∃ migration ∈ all, migration.version = row.version ∧ ∃ sql,
    migration.file .down dialect = some sql ∧ engine.exec sql db.schema = .ok next.schema ∧
    next.rows = db.rows.filter fun other => other.version ≠ row.version

theorem transaction_insert (sql : JsString) (row : AppliedMigration) (db next : Database S) :
    engine.transaction sql (·.insert row engine.conflict) db = .ok next ↔
      row.version ∉ db.versions ∧ engine.exec sql db.schema = .ok next.schema ∧
        next.rows = db.rows ++ [row] := by
  rw [transaction]
  cases ran : engine.exec sql db.schema with
  | error e => simp [bind,Except.bind]
  | ok schema =>
    refine (insert_ok { db with schema } row engine.conflict next).trans ?_
    simp only [Database.versions,Except.ok.injEq,eq_comm]

theorem applyMigration_ok (dialect : Dialect) (migration : Migration) (db : Database S)
    (row : AppliedMigration) (next : Database S) :
    engine.applyMigration dialect migration db = .ok (row,next) ↔
      migration.version ∉ db.versions ∧ engine.Applies dialect migration db row next := by
  rw [applyMigration,Migration.readSql,Applies]
  cases script : migration.file .up dialect with
  | none => simp [bind,Except.bind]
  | some sql =>
    have inserted := engine.transaction_insert sql
      (engine.record migration.version migration.name sql) db
    simp only [bind,Except.bind,pure,Except.pure]
    cases ran : engine.transaction sql
        (·.insert (engine.record migration.version migration.name sql) engine.conflict) db with
    | error e =>
      simp only [ran,reduceCtorEq,false_iff] at inserted
      simp only [reduceCtorEq,false_iff,Option.some.injEq,exists_eq_left',not_and]
      rintro fresh made rfl rows
      exact inserted next ⟨fresh,made,rows⟩
    | ok made =>
      simp only [ran] at inserted
      simp only [Except.ok.injEq,Prod.mk.injEq,Option.some.injEq,exists_eq_left']
      constructor
      · rintro ⟨rfl,rfl⟩
        obtain ⟨fresh,schema,rows⟩ := (inserted made).mp rfl
        exact ⟨fresh,schema,rfl,rows⟩
      · rintro ⟨fresh,schema,rfl,rows⟩
        exact ⟨rfl,Except.ok.inj ((inserted next).mpr ⟨fresh,schema,rows⟩)⟩

/-- What the synchronous runner returns for a row. -/
def fullName (row : AppliedMigration) : JsString := row.version.1 ++ js "_" ++ row.name

theorem applySqliteMigration_ok {migration : Migration} (script : migration.file .up .sqlite ≠ none)
    {db next : Database S} {row : AppliedMigration}
    (applied : engine.applyMigration .sqlite migration db = .ok (row,next)) :
    engine.applySqliteMigration migration.discovered db = .ok (fullName row,next) := by
  obtain ⟨sql,text⟩ := Option.ne_none_iff_exists'.mp script
  rw [applyMigration_ok,Applies] at applied
  obtain ⟨fresh,sql',same,schema,rfl,rows⟩ := applied
  rw [text] at same
  cases same
  have inserted := (engine.transaction_insert sql
    (engine.record migration.version migration.name sql) db next).mpr ⟨fresh,schema,rows⟩
  rw [applySqliteMigration,Migration.discovered,text]
  simp only [Option.getD_some,inserted,fullName]
  rfl

theorem applySqliteMigration_error {migration : Migration}
    (script : migration.file .up .sqlite ≠ none) {db : Database S} {e : JsString}
    (failed : engine.applyMigration .sqlite migration db = .error e) :
    ∃ e', engine.applySqliteMigration migration.discovered db = .error e' := by
  obtain ⟨sql,text⟩ := Option.ne_none_iff_exists'.mp script
  simp only [applyMigration,Migration.readSql,text,bind,Except.bind,pure,Except.pure] at failed
  simp only [applySqliteMigration,Migration.discovered,text,Option.getD_some]
  split at failed
  · next stopped => exact ⟨_,by rw [stopped]⟩
  · cases failed

/-- The loop of the synchronous runner skips what is applied. -/
theorem applyDiscovered_eq (appliedSet : List Version) (discovered : List DiscoveredMigration)
    (db : Database S) : engine.applyDiscovered appliedSet discovered db =
      runBatch engine.applySqliteMigration
        (discovered.filter fun migration => migration.version ∉ appliedSet) db := by
  induction discovered generalizing db with
  | nil => rfl
  | cons migration rest ih =>
    rw [applyDiscovered]
    split
    · next applied => rw [List.filter_cons_of_neg (by simpa using applied),ih]
    · next pending =>
      rw [List.filter_cons_of_pos (by simpa using pending),runBatch]
      cases engine.applySqliteMigration migration db with
      | error e => rfl
      | ok made => simp only [ih]

end Engine

end Steps

section Correctness

variable {S : Type}

/-- The migrations that a run applies, in the order of their versions. -/
def pendingMigrations (dir : Directory) (db : Database S) : List Migration :=
  (sortByVersion Migration.version (onDisk dir)).filter fun migration =>
    migration.version ∉ db.versions

/-- Whether the directory holds the migration of a row and the script of its way back. -/
def revertible (dialect : Dialect) (dir : Directory) (row : AppliedMigration) : Bool :=
  (onDisk dir).any fun migration =>
    migration.version = row.version && (migration.file .down dialect).isSome

/-- The rows of the last migrations that were applied, the last one first. -/
def recentRows (db : Database S) (steps : ℤ) : List AppliedMigration :=
  (db.rows.rtake steps.toNat).reverse

/-- The rows of the highest versions, the highest one first. -/
def highestRows (db : Database S) (steps : ℤ) : List AppliedMigration :=
  ((sortByVersion AppliedMigration.version db.rows).rtake steps.toNat).reverse

/-- The runners apply what is pending in increasing numeric order and agree on it, each migration
in one transaction, a failure keeps what was before it and nothing else, a second run applies
nothing, and `down` takes back the migrations that were applied last, the last one first. -/
structure Correct (engine : Engine S) (dialect : Dialect) (dir : Directory) (db : Database S)
    (steps : ℤ) : Prop where
  refuses : ∀ e, discover dir = .error e → (engine.up dialect dir db).Idle db ∧
    (engine.applySqliteMigrationsSync dir db).Idle db ∧ (engine.down dialect dir steps db).Idle db
  applies : ∀ migration before row next, engine.applyMigration dialect migration before =
    .ok (row,next) → engine.Applies dialect migration before row next
  pending : ∀ all, discover dir = .ok all → ∃ pending : List Migration,
    (∀ migration, migration ∈ pending ↔
      migration ∈ onDisk dir ∧ migration.version ∉ db.versions) ∧
    (pending.map Migration.version).Nodup ∧
    (pending.Pairwise fun a b => a.version.number ≤ b.version.number) ∧
    Follows (engine.applyMigration dialect) pending db (engine.up dialect dir db)
  agree : (engine.applySqliteMigrationsSync dir db).done =
      (engine.up .sqlite dir db).done.map Engine.fullName ∧
    (engine.applySqliteMigrationsSync dir db).state = (engine.up .sqlite dir db).state
  again : (engine.up dialect dir db).error = none →
    (engine.up dialect dir (engine.up dialect dir db).state).Idle (engine.up dialect dir db).state
  againSync : (engine.applySqliteMigrationsSync dir db).error = none →
    (engine.applySqliteMigrationsSync dir (engine.applySqliteMigrationsSync dir db).state).Idle
      (engine.applySqliteMigrationsSync dir db).state
  reverts : ∀ all row before row' next, engine.rollBackMigration dialect all row before =
    .ok (row',next) → row' = row ∧ engine.Reverts dialect all row before next
  newestFirst : ∀ all, discover dir = .ok all → 1 ≤ steps →
    Follows (engine.rollBackMigration dialect all) (recentRows db steps) db
      (engine.down dialect dir steps db)

theorem listApplied_eq (db : Database S) :
    db.listApplied = sortByVersion AppliedMigration.version db.rows := by
  refine List.Perm.eq_of_pairwise (fun a b left right le ge => ?_)
    (sortByVersion_sorted _ _) (sortByVersion_sorted _ _)
    ((listApplied_perm db).trans (sortByVersion_perm _ _).symm)
  exact List.inj_on_of_nodup_map db.key ((listApplied_perm db).mem_iff.mp left)
    ((sortByVersion_perm _ _).mem_iff.mp right) (rank_injective (le_antisymm le ge))

theorem number_le {a b : Version} (le : a.rank ≤ b.rank) : a.number ≤ b.number := by
  rcases Prod.Lex.toLex_le_toLex.mp le with less | same
  · exact less.le
  · exact same.1.le

theorem mem_pendingMigrations (dir : Directory) (db : Database S) (migration : Migration) :
    migration ∈ pendingMigrations dir db ↔
      migration ∈ onDisk dir ∧ migration.version ∉ db.versions := by
  rw [pendingMigrations,List.mem_filter,(sortByVersion_perm _ _).mem_iff,decide_eq_true_iff]

theorem pendingMigrations_sorted (dir : Directory) (db : Database S) :
    (pendingMigrations dir db).Pairwise fun a b => a.version.number ≤ b.version.number :=
  ((sortByVersion_sorted Migration.version (onDisk dir)).filter _).imp fun le => number_le le

theorem pendingMigrations_nodup {dir : Directory} (db : Database S)
    (distinct : ((onDisk dir).map Migration.version).Nodup) :
    ((pendingMigrations dir db).map Migration.version).Nodup :=
  (((sortByVersion_perm _ _).map _).nodup_iff.mpr distinct).sublist (List.filter_sublist.map _)

theorem pendingMigrations_discovered {dir : Directory} {all : List Migration}
    (found : discover dir = .ok all) (db : Database S) : pendingMigrations dir db =
      all.filter fun migration => migration.version ∉ db.versions := by
  rw [pendingMigrations,((discover_ok dir all).mp found).2]

theorem up_eq (engine : Engine S) (dialect : Dialect) {dir : Directory} {all : List Migration}
    (found : discover dir = .ok all) (db : Database S) : engine.up dialect dir db =
      runBatch (engine.applyMigration dialect) (pendingMigrations dir db) db := by
  rw [pendingMigrations_discovered found]
  simp only [Engine.up,found,listApplied_versions]

/-- The rows after migrations that were all applied. -/
theorem versions_of_ran {engine : Engine S} {dialect : Dialect} {migrations : List Migration}
    {db last : Database S} {rows : List AppliedMigration}
    (ran : Ran (engine.applyMigration dialect) migrations db rows last) :
    last.versions = db.versions ++ migrations.map Migration.version := by
  induction ran with
  | nil => simp
  | cons first _ ih =>
    obtain ⟨_,sql,_,_,rfl,rows⟩ := (engine.applyMigration_ok _ _ _ _ _).mp first
    rw [ih]
    simp [Database.versions,rows,Engine.record]

theorem up_again (engine : Engine S) (dialect : Dialect) (dir : Directory) (db : Database S)
    (complete : (engine.up dialect dir db).error = none) :
    (engine.up dialect dir (engine.up dialect dir db).state).Idle
      (engine.up dialect dir db).state := by
  cases found : discover dir with
  | error e => simp [Engine.up,found] at complete
  | ok all =>
    have follows := runBatch_follows (engine.applyMigration dialect) (pendingMigrations dir db) db
    rw [← up_eq engine dialect found db] at follows
    obtain ⟨ran,rest,split,steps,ends⟩ := follows
    have nothing : rest = [] := by
      rcases ends with ⟨_,none⟩ | ⟨failed,_⟩
      · exact none
      · exact absurd complete failed
    rw [nothing,List.append_nil] at split
    have versions := versions_of_ran steps
    have empty : pendingMigrations dir (engine.up dialect dir db).state = [] := by
      refine List.eq_nil_iff_forall_not_mem.mpr fun migration member => ?_
      rw [mem_pendingMigrations,versions,← split,List.mem_append,not_or] at member
      obtain ⟨disk,fresh,later⟩ := member
      exact later (List.mem_map_of_mem ((mem_pendingMigrations dir db migration).mpr ⟨disk,fresh⟩))
    rw [up_eq engine dialect found,empty]
    exact ⟨rfl,rfl⟩

/-- With all scripts, the two runners agree, up to the text of the error. -/
theorem sync_agrees (engine : Engine S) {dir : Directory} (db : Database S)
    (scripts : ∀ migration ∈ onDisk dir, migration.file .up .sqlite ≠ none) :
    (engine.up .sqlite dir db).Agrees Engine.fullName (engine.applySqliteMigrationsSync dir db) := by
  rw [Engine.applySqliteMigrationsSync,discoverSqliteMigrations_eq dir scripts]
  cases found : discover dir with
  | error e => simp [Engine.up,found,Outcome.Agrees,Except.map]
  | ok all =>
    simp only [Except.map]
    rw [up_eq engine .sqlite found,Engine.applyDiscovered_eq,List.filter_map]
    change (runBatch _ _ db).Agrees Engine.fullName (runBatch engine.applySqliteMigration
      ((all.filter fun migration => migration.version ∉ db.versions).map Migration.discovered) db)
    rw [← pendingMigrations_discovered found]
    have script (migration) (member : migration ∈ pendingMigrations dir db) :=
      scripts migration ((mem_pendingMigrations dir db migration).mp member).1
    exact runBatch_agrees Migration.discovered Engine.fullName _
      (fun migration member _ _ _ => engine.applySqliteMigration_ok (script migration member))
      (fun migration member _ _ => engine.applySqliteMigration_error (script migration member)) db

theorem sync_missing (engine : Engine S) {dir : Directory} (db : Database S)
    (missing : ∃ migration ∈ onDisk dir, migration.file .up .sqlite = none) :
    (engine.applySqliteMigrationsSync dir db).Idle db ∧
      (engine.applySqliteMigrationsSync dir db).error ≠ none := by
  obtain ⟨e,error⟩ := discoverSqliteMigrations_error dir missing
  rw [Engine.applySqliteMigrationsSync,error]
  exact ⟨⟨rfl,rfl⟩,nofun⟩

theorem sync_again (engine : Engine S) (dir : Directory) (db : Database S)
    (complete : (engine.applySqliteMigrationsSync dir db).error = none) :
    (engine.applySqliteMigrationsSync dir (engine.applySqliteMigrationsSync dir db).state).Idle
      (engine.applySqliteMigrationsSync dir db).state := by
  by_cases scripts : ∀ migration ∈ onDisk dir, migration.file .up .sqlite ≠ none
  · obtain ⟨-,state,error⟩ := sync_agrees engine db scripts
    obtain ⟨done,same,-⟩ := sync_agrees engine (engine.up .sqlite dir db).state scripts
    obtain ⟨nothing,kept⟩ := up_again engine .sqlite dir db (error.mp complete)
    rw [state,Outcome.Idle,done,same,nothing,kept]
    exact ⟨rfl,rfl⟩
  · push Not at scripts
    exact absurd complete (sync_missing engine db scripts).2

theorem refuses_duplicates (engine : Engine S) (dialect : Dialect) {dir : Directory} {e : JsString}
    (refused : discover dir = .error e) (db : Database S) (steps : ℤ) :
    (engine.up dialect dir db).Idle db ∧ (engine.applySqliteMigrationsSync dir db).Idle db ∧
      (engine.down dialect dir steps db).Idle db := by
  refine ⟨?_,?_,?_⟩
  · rw [Engine.up,refused]
    exact ⟨rfl,rfl⟩
  · by_cases scripts : ∀ migration ∈ onDisk dir, migration.file .up .sqlite ≠ none
    · rw [Engine.applySqliteMigrationsSync,discoverSqliteMigrations_eq dir scripts,refused]
      exact ⟨rfl,rfl⟩
    · push Not at scripts
      exact (sync_missing engine db scripts).1
  · rw [Engine.down,refused]
    split
    · exact ⟨rfl,rfl⟩
    · dsimp only
      split
      · exact ⟨rfl,rfl⟩
      · exact ⟨rfl,rfl⟩

/-- A version finds the migration that carries it. -/
theorem find_revertible {dialect : Dialect} {dir : Directory} {all : List Migration}
    (found : discover dir = .ok all) (row : AppliedMigration) :
    revertible dialect dir row = true ↔ ∃ migration,
      all.find? (fun migration => migration.version = row.version) = some migration ∧
        migration.file .down dialect ≠ none := by
  obtain ⟨distinct,rfl⟩ := (discover_ok dir all).mp found
  have perm := sortByVersion_perm Migration.version (onDisk dir)
  simp only [revertible,List.any_eq_true,Bool.and_eq_true,decide_eq_true_iff,
    Option.isSome_iff_ne_none]
  constructor
  · rintro ⟨migration,member,version,script⟩
    have some : (List.find? (fun migration => migration.version = row.version)
        (sortByVersion Migration.version (onDisk dir))).isSome := by
      rw [List.find?_isSome]
      exact ⟨migration,perm.mem_iff.mpr member,by simpa using version⟩
    obtain ⟨other,first⟩ := Option.isSome_iff_exists.mp some
    have same : other = migration := by
      refine List.inj_on_of_nodup_map distinct (perm.mem_iff.mp (List.mem_of_find?_eq_some first))
        member ?_
      rw [version]
      simpa using List.find?_some first
    exact ⟨other,first,same ▸ script⟩
  · rintro ⟨migration,first,script⟩
    exact ⟨migration,perm.mem_iff.mp (List.mem_of_find?_eq_some first),
      by simpa using List.find?_some first,script⟩

theorem rollBackMigration_ok (engine : Engine S) (dialect : Dialect) (all : List Migration)
    (row row' : AppliedMigration) (db next : Database S)
    (rolled : engine.rollBackMigration dialect all row db = .ok (row',next)) :
    row' = row ∧ engine.Reverts dialect all row db next := by
  rw [Engine.rollBackMigration] at rolled
  split at rolled
  · cases rolled
  · next migration first =>
    have version : migration.version = row.version := by simpa using List.find?_some first
    rw [Migration.readSql] at rolled
    cases script : migration.file .down dialect with
    | none => simp [script,bind,Except.bind] at rolled
    | some sql =>
      cases ran : engine.exec sql db.schema with
      | error e => simp [script,Engine.transaction,ran,bind,Except.bind] at rolled
      | ok schema =>
        simp only [script,Engine.transaction,ran,bind,Except.bind,pure,Except.pure,
          Except.ok.injEq,Prod.mk.injEq] at rolled
        obtain ⟨rfl,rfl⟩ := rolled
        exact ⟨rfl,migration,List.mem_of_find?_eq_some first,version,sql,script,ran,
          by rw [version]; rfl⟩

theorem rollBackMigration_fails (engine : Engine S) {dialect : Dialect} {dir : Directory}
    {all : List Migration} (found : discover dir = .ok all) (row : AppliedMigration)
    (db : Database S) (unable : revertible dialect dir row = false) :
    ∃ e, engine.rollBackMigration dialect all row db = .error e := by
  rw [Engine.rollBackMigration]
  split
  · exact ⟨_,rfl⟩
  · next migration first =>
    have script : migration.file .down dialect = none := by
      by_contra some
      rw [(find_revertible found row).mpr ⟨migration,first,some⟩] at unable
      cases unable
    simp [Migration.readSql,script,bind,Except.bind]

/-- An engine on which every script succeeds. -/
def idleEngine : Engine S := ⟨fun _ schema => .ok schema,id,fun _ => 0,[]⟩

theorem applyMigration_succeeds {dialect : Dialect} {migration : Migration} {sql : JsString}
    (script : migration.file .up dialect = some sql) {db : Database S}
    (fresh : migration.version ∉ db.versions) :
    ∃ row next, idleEngine.applyMigration dialect migration db = .ok (row,next) := by
  have inserted : ∃ next, db.insert (idleEngine (S := S).record migration.version migration.name sql)
      [] = .ok next := ⟨_,dif_pos fresh⟩
  obtain ⟨next,inserted⟩ := inserted
  obtain ⟨-,schema,rows⟩ := (insert_ok _ _ _ _).mp inserted
  exact ⟨_,next,(idleEngine.applyMigration_ok _ _ _ _ _).mpr
    ⟨fresh,sql,script,congrArg Except.ok schema.symm,rfl,rows⟩⟩

theorem rollBackMigration_succeeds {dialect : Dialect} {dir : Directory}
    {all : List Migration} (found : discover dir = .ok all) (row : AppliedMigration)
    (db : Database S) (able : revertible dialect dir row = true) :
    ∃ next, idleEngine.rollBackMigration dialect all row db = .ok (row,next) := by
  obtain ⟨migration,first,script⟩ := (find_revertible found row).mp able
  obtain ⟨sql,text⟩ := Option.ne_none_iff_exists'.mp script
  exact ⟨db.delete migration.version,by
    simp [Engine.rollBackMigration,first,Migration.readSql,text,Engine.transaction,idleEngine,bind,
      Except.bind,pure,Except.pure]⟩

theorem down_eq (engine : Engine S) (dialect : Dialect) {dir : Directory} {all : List Migration}
    (found : discover dir = .ok all) (db : Database S) {steps : ℤ} (some : 1 ≤ steps) :
    engine.down dialect dir steps db =
      runBatch (engine.rollBackMigration dialect all) (highestRows db steps) db := by
  rw [Engine.down,if_neg (by omega),found,listApplied_eq]
  dsimp only
  split
  · next empty =>
    rw [List.isEmpty_iff] at empty
    rw [highestRows,empty,List.rtake_nil]
    rfl
  · rfl

/-- The versions are not distinct, or each directory has its script for SQLite, or the first
pending migration has none. -/
def UpReady (dir : Directory) (db : Database S) : Prop :=
  ((onDisk dir).map Migration.version).Nodup →
    (∀ migration ∈ onDisk dir, migration.file .up .sqlite ≠ none) ∨
      ∀ migration ∈ (pendingMigrations dir db).head?, migration.file .up .sqlite = none

/-- The versions are not distinct, or the highest rows are the last ones, down to the first that
has no way back. -/
def DownReady (dialect : Dialect) (dir : Directory) (db : Database S) (steps : ℤ) : Prop :=
  ((onDisk dir).map Migration.version).Nodup → 1 ≤ steps →
    (highestRows db steps).takeWhile (revertible dialect dir) =
      (recentRows db steps).takeWhile (revertible dialect dir)

theorem agree_of_upReady (engine : Engine S) {dir : Directory} {db : Database S}
    (ready : UpReady dir db) :
    (engine.applySqliteMigrationsSync dir db).done =
        (engine.up .sqlite dir db).done.map Engine.fullName ∧
      (engine.applySqliteMigrationsSync dir db).state = (engine.up .sqlite dir db).state := by
  by_cases scripts : ∀ migration ∈ onDisk dir, migration.file .up .sqlite ≠ none
  · obtain ⟨done,state,-⟩ := sync_agrees engine db scripts
    exact ⟨done,state⟩
  · have first := fun distinct => (ready distinct).resolve_left scripts
    push Not at scripts
    obtain ⟨⟨done,state⟩,-⟩ := sync_missing engine db scripts
    suffices idle : (engine.up .sqlite dir db).Idle db by
      rw [done,state,idle.1,idle.2]
      exact ⟨rfl,rfl⟩
    cases found : discover dir with
    | error e => exact (refuses_duplicates engine .sqlite found db 1).1
    | ok all =>
      have lacks := first ((discover_ok dir all).mp found).1
      rw [up_eq engine .sqlite found]
      cases waiting : pendingMigrations dir db with
      | nil => exact ⟨rfl,rfl⟩
      | cons migration rest =>
        rw [waiting] at lacks
        simp [runBatch,Engine.applyMigration,Migration.readSql,lacks migration rfl,bind,
          Except.bind,Outcome.Idle]

/-- On an engine where every script succeeds, the first pending migration is applied. -/
theorem upReady_of_agree {dir : Directory} {db : Database S}
    (agree : (idleEngine.applySqliteMigrationsSync dir db).done =
      (idleEngine.up .sqlite dir db).done.map Engine.fullName) : UpReady dir db := by
  intro distinct
  by_contra neither
  push Not at neither
  obtain ⟨missing,migration,first,script⟩ := neither
  have found := (discover_ok dir _).mpr ⟨distinct,rfl⟩
  obtain ⟨rest,waiting⟩ := List.head?_eq_some_iff.mp first
  obtain ⟨sql,text⟩ := Option.ne_none_iff_exists'.mp script
  have fresh : migration.version ∉ db.versions :=
    ((mem_pendingMigrations dir db migration).mp (waiting ▸ List.mem_cons_self)).2
  obtain ⟨row,next,applied⟩ := applyMigration_succeeds text fresh
  rw [(sync_missing idleEngine db missing).1.1,up_eq _ .sqlite found,waiting,runBatch,applied] at agree
  cases agree

theorem newestFirst_iff {dialect : Dialect} {dir : Directory} {all : List Migration}
    (found : discover dir = .ok all) (db : Database S) {steps : ℤ} (some : 1 ≤ steps) :
    (∀ engine : Engine S, Follows (engine.rollBackMigration dialect all) (recentRows db steps) db
      (engine.down dialect dir steps db)) ↔
      (highestRows db steps).takeWhile (revertible dialect dir) =
        (recentRows db steps).takeWhile (revertible dialect dir) := by
  have follows (engine : Engine S) :
      Follows (engine.rollBackMigration dialect all) (highestRows db steps) db
        (engine.down dialect dir steps db) := by
    rw [down_eq engine dialect found db some]
    exact runBatch_follows _ _ _
  constructor
  · intro newest
    rw [← (follows idleEngine).done_eq (rollBackMigration_succeeds found)
      (rollBackMigration_fails idleEngine found)]
    exact (newest idleEngine).done_eq (rollBackMigration_succeeds found)
      (rollBackMigration_fails idleEngine found)
  · intro same engine
    refine (follows engine).transfer (rollBackMigration_fails engine found) same ?_
    simp [highestRows,recentRows,List.rtake,(sortByVersion_perm _ _).length_eq]

/-- What a run that follows the rows has taken back are the first of them. -/
theorem rolledBack_first {engine : Engine S} {dialect : Dialect} {all : List Migration}
    {rows : List AppliedMigration} {db : Database S}
    {out : Outcome AppliedMigration JsString (Database S)} (follows : Follows (engine.rollBackMigration dialect all) rows db out) : out.done <+: rows := by
  obtain ⟨ran,rest,rfl,steps,-⟩ := follows
  suffices same : out.done = ran from same ▸ List.prefix_append _ _
  clear rest
  generalize out.done = done,out.state = last at steps
  induction steps with
  | nil => rfl
  | cons first _ ih => rw [ih,(rollBackMigration_ok _ _ _ _ _ _ _ first).1]

/-- For every database engine, the runners are correct exactly if no script for SQLite is missing
where only the synchronous runner looks, and the versions that `down` takes are the last ones. -/
theorem migrations_correct_iff (dialect : Dialect) (dir : Directory) (db : Database S) (steps : ℤ) :
    (∀ engine : Engine S, Correct engine dialect dir db steps) ↔
      UpReady dir db ∧ DownReady dialect dir db steps := by
  constructor
  · intro correct
    refine ⟨upReady_of_agree (correct idleEngine).agree.1,fun distinct some => ?_⟩
    have found := (discover_ok dir _).mpr ⟨distinct,rfl⟩
    exact (newestFirst_iff found db some).mp fun engine =>
      (correct engine).newestFirst _ found some
  · intro ready engine
    refine ⟨fun e refused => refuses_duplicates engine dialect refused db steps,?_,?_,
      agree_of_upReady engine ready.1,up_again engine dialect dir db,sync_again engine dir db,
      fun all row before row' next => rollBackMigration_ok engine dialect all row row' before next,?_⟩
    · exact fun migration before row next applied =>
        ((engine.applyMigration_ok dialect migration before row next).mp applied).2
    · intro all found
      refine ⟨pendingMigrations dir db,mem_pendingMigrations dir db,
        pendingMigrations_nodup db ((discover_ok dir all).mp found).1,
        pendingMigrations_sorted dir db,?_⟩
      rw [up_eq engine dialect found]
      exact runBatch_follows _ _ _
    · intro all found some
      exact (newestFirst_iff found db some).mpr
        (ready.2 ((discover_ok dir all).mp found).1 some) engine

/-- A directory of a migration with all of its scripts. -/
def fullEntry (name : String) : Entry :=
  ⟨js name,true,fun direction dialect => some (direction.text ++ js " " ++ dialect.text)⟩

def laterDirectory : Directory :=
  some [fullEntry "001_initial",fullEntry "002_between",fullEntry "003_last"]

/-- The database after a run with the migrations 001 and 003 and a run after 002 was added. -/
def latecomer : Database Unit :=
  let first := idleEngine.up .sqlite (some [fullEntry "001_initial",fullEntry "003_last"])
    ⟨(),[],List.nodup_nil⟩
  (idleEngine.up .sqlite laterDirectory first.state).state

/-- The migration 002 was applied last, and `down` takes back 003. -/
theorem down_takes_highest : ¬Correct idleEngine .sqlite laterDirectory latecomer 1 := by
  intro correct
  have found := (discover_ok laterDirectory _).mpr ⟨by decide +kernel,rfl⟩
  have first := rolledBack_first (correct.newestFirst _ found (by decide))
  revert first
  decide +kernel

end Correctness

end Tonbankcard.Migrator
