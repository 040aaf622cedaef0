import Mathlib.Algebra.Group.Nat.Defs
import Mathlib.Data.List.Sort
import Mathlib.Data.Nat.Log
import PgJobQ.Library.Utf16

/-!
# Migration files

`loadMigrations` reads the files of a directory whose names end in `.sql`.  Each
name starts with the number of its version.  A name of another form, or a
version two files share, is an error; otherwise the migrations come in the order
of their versions.
-/

namespace PgJobQ

structure Migration where
  version : Nat
  name : String
  filename : String
  sql : String
  checksum : String
  deriving DecidableEq, Repr

/-- `MigrationError`, with its message. -/
structure MigrationError where
  message : String
  deriving DecidableEq, Repr

structure MigrationFile where
  filename : String
  body : String
  deriving DecidableEq, Repr

/-- A directory, and what is in it if it can be read. -/
structure MigrationsDir where
  path : String
  entries : Option (List MigrationFile)
  deriving DecidableEq, Repr

/-- The migrations of a build, by their versions. -/
structure Build where
  migrations : List Migration
  ordered : migrations.Pairwise (fun first second => first.version < second.version)

/-- The `Number` nearest to an integer.  No file name has enough digits for
infinity. -/
def nearestNumber (n : Nat) : Nat :=
  if n < 2 ^ 53 then n
  else
    let unit := 2 ^ (Nat.log 2 n - 52)
    if 2 * (n % unit) < unit ∨ (2 * (n % unit) = unit ∧ n / unit % 2 = 0) then n / unit * unit
    else (n / unit + 1) * unit

/-- `Number.parseInt`. -/
def parseVersion (digits : List Char) : Nat :=
  nearestNumber (digits.foldl (fun value digit => value * 10 + (digit.toNat - '0'.toNat)) 0)

/-- What `.` does not match. -/
def lineTerminator (char : Char) : Bool :=
  char == '\n' || char == '\r' || char == Char.ofNat 0x2028 || char == Char.ofNat 0x2029

/-- `^(\d+)[_-](.+)\.sql$`, with its two groups. -/
def matchFilename (filename : String) : Option (List Char × List Char) :=
  let digits := filename.toList.takeWhile Char.isDigit
  match filename.toList.dropWhile Char.isDigit with
  | [] => none
  | separator :: rest =>
      let name := rest.take (rest.length - 4)
      if digits ≠ [] ∧ (separator = '_' ∨ separator = '-') ∧ rest.drop (rest.length - 4) = ".sql".toList ∧
          name ≠ [] ∧ name.any lineTerminator = false then
        some (digits, name)
      else none

def readMigration (checksum : String -> String) (file : MigrationFile) :
    Except MigrationError Migration :=
  match matchFilename file.filename with
  | none => .error ⟨"Migration filename must be <number>_<name>.sql, got: " ++ file.filename⟩
  | some (digits, name) => .ok {
      version := parseVersion digits
      name := String.ofList name
      filename := file.filename
      sql := file.body
      checksum := checksum file.body }

/-- The first migration whose version an earlier one has. -/
def firstDuplicate (seen : List Nat) : List Migration -> Option Migration
  | [] => none
  | migration :: rest =>
      if migration.version ∈ seen then some migration
      else firstDuplicate (migration.version :: seen) rest

theorem nodup_of_firstDuplicate {seen : List Nat} {migrations : List Migration}
    (distinct : firstDuplicate seen migrations = none) :
    (migrations.map Migration.version).Nodup ∧
      forall migration, migration ∈ migrations -> Not (migration.version ∈ seen) := by
  induction migrations generalizing seen with
  | nil => exact ⟨List.nodup_nil, fun _ member => absurd member List.not_mem_nil⟩
  | cons migration rest inductionHypothesis =>
      unfold firstDuplicate at distinct
      split at distinct
      · cases distinct
      · rename_i fresh
        rcases inductionHypothesis distinct with ⟨nodup, apart⟩
        refine ⟨List.nodup_cons.mpr ⟨?_, nodup⟩, ?_⟩
        · intro repeated
          rcases List.mem_map.mp repeated with ⟨other, member, same⟩
          exact apart other member (same ▸ List.mem_cons_self)
        · intro other member
          rcases List.mem_cons.mp member with rfl | later
          · exact fresh
          · exact fun old => apart other later (List.mem_cons_of_mem _ old)

/-- `readdir` and `sort`: file names compare by their code units. -/
def sqlFiles (entries : List MigrationFile) : List MigrationFile :=
  (entries.filter (fun file => ".sql".toList.isSuffixOf file.filename.toList)).insertionSort
    (fun first second => Utf16.encode first.filename.toList ≤ Utf16.encode second.filename.toList)

/-- `migrations.sort((a, b) => a.version - b.version)`. -/
def byVersion (migrations : List Migration) : List Migration :=
  migrations.insertionSort (fun first second => first.version ≤ second.version)

theorem ordered_byVersion {migrations : List Migration}
    (distinct : (migrations.map Migration.version).Nodup) :
    (byVersion migrations).Pairwise (fun first second => first.version < second.version) := by
  have sorted : (byVersion migrations).Pairwise
      (fun first second => first.version ≤ second.version) :=
    List.pairwise_insertionSort _ _
  have apart : (byVersion migrations).Pairwise
      (fun first second => first.version ≠ second.version) := by
    apply List.pairwise_map.mp
    exact (((List.perm_insertionSort _ migrations).map Migration.version).nodup_iff).mpr distinct
  exact (sorted.and apart).imp (fun both => Nat.lt_of_le_of_ne both.1 both.2)

def loadMigrations (checksum : String -> String) (dir : MigrationsDir) :
    Except MigrationError Build :=
  match dir.entries with
  | none => .error ⟨"Cannot read migrations directory: " ++ dir.path⟩
  | some entries =>
      match (sqlFiles entries).mapM (readMigration checksum) with
      | .error error => .error error
      | .ok migrations =>
          match found : firstDuplicate [] migrations with
          | some migration => .error ⟨"Duplicate migration version " ++
              toString migration.version ++ " (" ++ migration.filename ++ ")"⟩
          | none => .ok ⟨byVersion migrations,
              ordered_byVersion (nodup_of_firstDuplicate found).1⟩

namespace Build

def versions (build : Build) : List Nat := build.migrations.map Migration.version

theorem nodup_versions (build : Build) : build.versions.Nodup :=
  List.pairwise_map.mpr (build.ordered.imp Nat.ne_of_lt)

end Build

def latestVersion (build : Build) : Nat :=
  (build.migrations.getLast?.map Migration.version).getD 0

/-- No version of a build is beyond its latest. -/
theorem le_latestVersion {build : Build} {version : Nat} (member : version ∈ build.versions) :
    version ≤ latestVersion build := by
  rcases List.mem_map.mp member with ⟨migration, listed, rfl⟩
  rcases List.eq_nil_or_concat build.migrations with none | ⟨earlier, last, isLast⟩
  · rw [none] at listed
    cases listed
  · have ordered := build.ordered
    unfold latestVersion
    rw [isLast] at listed ordered ⊢
    rw [List.concat_eq_append] at listed ordered ⊢
    rw [List.getLast?_append_of_ne_nil _ (List.cons_ne_nil _ _)]
    rcases List.mem_append.mp listed with before | final
    · exact Nat.le_of_lt ((List.pairwise_append.mp ordered).2.2 _ before _ List.mem_cons_self)
    · rw [List.mem_singleton.mp final]
      exact Nat.le_refl _

/-- The latest version is that of a file, if it is not zero. -/
theorem latestVersion_mem {build : Build} (positive : latestVersion build ≠ 0) :
    latestVersion build ∈ build.versions := by
  unfold latestVersion at positive ⊢
  cases last : build.migrations.getLast? with
  | none =>
      rw [last] at positive
      exact absurd rfl positive
  | some migration => exact List.mem_map_of_mem (List.mem_of_getLast? last)

end PgJobQ
