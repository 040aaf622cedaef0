import PgJobQ.Migrations.Order

/-!
# What the startup gate tells

The gate compares two maxima.  They are equal whenever the recorded versions are
those of the build, but also when a file below the latest was added after its
successors had been applied, or was taken away.
-/

namespace PgJobQ

open Runs

/-- The recorded versions are those of the files. -/
def SameVersions (build : Build) (recorded : List AppliedMigration) : Prop :=
  forall version, version ∈ recordedVersions recorded <-> version ∈ build.versions

/-- The gate lets a build pass exactly when nothing of it is pending and nothing
recorded is unknown to it. -/
structure GateExact (checksum : String -> String) (dir : MigrationsDir) (build : Build)
    (recorded : List AppliedMigration) : Prop where
  passes : (Exists fun version : Nat =>
    assertSchemaCurrent checksum dir (some recorded) = .ok version) <->
      SameVersions build recorded
  throws : Not (SameVersions build recorded) -> Exists fun error : MigrationError =>
    assertSchemaCurrent checksum dir (some recorded) = .error error

/-- Where the newest recorded version is the latest of the build, the two have
the same versions below it. -/
def SameBelow (build : Build) (recorded : List AppliedMigration) : Prop :=
  newestRecorded recorded = latestVersion build ->
    forall version, version = 0 ∨ version < latestVersion build ->
      (version ∈ recordedVersions recorded <-> version ∈ build.versions)

/-! ## The two maxima -/

theorem le_newestRecorded {recorded : List AppliedMigration} {version : Nat}
    (member : version ∈ recordedVersions recorded) : version ≤ newestRecorded recorded := by
  unfold newestRecorded
  generalize recordedVersions recorded = versions at member
  induction versions with
  | nil => cases member
  | cons first rest inductionHypothesis =>
      rcases List.mem_cons.mp member with rfl | later
      · exact Nat.le_max_left _ _
      · exact Nat.le_trans (inductionHypothesis later) (Nat.le_max_right _ _)

theorem newestRecorded_mem {recorded : List AppliedMigration}
    (positive : newestRecorded recorded ≠ 0) :
    newestRecorded recorded ∈ recordedVersions recorded := by
  unfold newestRecorded at positive ⊢
  generalize recordedVersions recorded = versions at positive
  induction versions with
  | nil => exact absurd rfl positive
  | cons first rest inductionHypothesis =>
      rw [List.foldr_cons] at positive ⊢
      rcases Nat.le_total (rest.foldr max 0) first with small | large
      · rw [Nat.max_eq_left small]
        exact List.mem_cons_self
      · rw [Nat.max_eq_right large] at positive ⊢
        exact List.mem_cons_of_mem first (inductionHypothesis positive)

/-- Equal sets of versions have one maximum. -/
theorem newest_eq_latest {build : Build} {recorded : List AppliedMigration}
    (same : SameVersions build recorded) : newestRecorded recorded = latestVersion build := by
  apply Nat.le_antisymm
  · by_cases zero : newestRecorded recorded = 0
    · rw [zero]
      exact Nat.zero_le _
    · exact le_latestVersion ((same _).mp (newestRecorded_mem zero))
  · by_cases zero : latestVersion build = 0
    · rw [zero]
      exact Nat.zero_le _
    · exact le_newestRecorded ((same _).mpr (latestVersion_mem zero))

/-- Sets with one maximum are equal when they agree below it. -/
theorem sameVersions_of_below {build : Build} {recorded : List AppliedMigration}
    (newest : newestRecorded recorded = latestVersion build) (below : SameBelow build recorded) :
    SameVersions build recorded := by
  intro version
  rcases Nat.lt_trichotomy version (latestVersion build) with lower | same | higher
  · exact below newest version (Or.inr lower)
  · by_cases zero : version = 0
    · exact below newest version (Or.inl zero)
    · have positive : latestVersion build ≠ 0 := same ▸ zero
      rw [same]
      exact ⟨fun _ => latestVersion_mem positive,
        fun _ => newest ▸ newestRecorded_mem (newest ▸ positive)⟩
  · constructor
    · intro member
      exact absurd (le_newestRecorded member) (by omega)
    · intro member
      exact absurd (le_latestVersion member) (by omega)

/-! ## The gate -/

theorem assertSchemaCurrent_ok_iff {checksum : String -> String} {dir : MigrationsDir}
    {build : Build} {recorded : List AppliedMigration}
    (loaded : loadMigrations checksum dir = .ok build) :
    (Exists fun version : Nat => assertSchemaCurrent checksum dir (some recorded) = .ok version) <->
      newestRecorded recorded = latestVersion build := by
  unfold assertSchemaCurrent checkVersion
  rw [loaded]
  by_cases newest : newestRecorded recorded = latestVersion build
  · simp [newest]
  · simp [newest]

/-- Whatever calls of `migrateUp` have recorded, of whatever builds, the gate is
exact for a build if and only if equal maxima come with equal versions below. -/
theorem gate_exact_iff {checksum : String -> String} {dir : MigrationsDir} {build : Build}
    (loaded : loadMigrations checksum dir = .ok build) (labels : List MigrationLabel) :
    GateExact checksum dir build (run MigrationSystem.step .empty labels).recorded <->
      SameBelow build (run MigrationSystem.step .empty labels).recorded := by
  generalize (run MigrationSystem.step .empty labels).recorded = recorded
  constructor
  · intro exact newest version _
    exact exact.passes.mp ((assertSchemaCurrent_ok_iff loaded).mpr newest) version
  · intro below
    have passes : (Exists fun version : Nat =>
        assertSchemaCurrent checksum dir (some recorded) = .ok version) <->
          SameVersions build recorded :=
      (assertSchemaCurrent_ok_iff loaded).trans
        ⟨fun newest => sameVersions_of_below newest below, newest_eq_latest⟩
    refine ⟨passes, fun different => ?_⟩
    cases told : assertSchemaCurrent checksum dir (some recorded) with
    | error error => exact ⟨error, rfl⟩
    | ok version => exact absurd (passes.mp ⟨version, told⟩) different

/-- A migration whose checksum is its text. -/
def plainMigration (version : Nat) (filename name sql : String) : Migration :=
  ⟨version, name, filename, sql, sql⟩

/-- A build from before the second file was merged. -/
def earlierBuild : Build where
  migrations := [plainMigration 1 "001_a.sql" "a" "A", plainMigration 3 "003_c.sql" "c" "C"]
  ordered := by decide

def laterBuild : Build where
  migrations := [plainMigration 1 "001_a.sql" "a" "A", plainMigration 2 "002_b.sql" "b" "B",
    plainMigration 3 "003_c.sql" "c" "C"]
  ordered := by decide

def laterDir : MigrationsDir where
  path := "migrations"
  entries := some [⟨"003_c.sql", "C"⟩, ⟨"001_a.sql", "A"⟩, ⟨"002_b.sql", "B"⟩]

/-- The earlier build has been migrated. -/
def earlierMigrated : List MigrationLabel := undisturbed 0 earlierBuild 0 2

theorem laterBuild_exact_iff :
    GateExact id laterDir laterBuild (run MigrationSystem.step .empty earlierMigrated).recorded <->
      SameBelow laterBuild (run MigrationSystem.step .empty earlierMigrated).recorded :=
  gate_exact_iff rfl earlierMigrated

/-- The gate lets the later build pass while its second migration is pending. -/
theorem laterBuild_passes_pending :
    recordedVersions (run MigrationSystem.step .empty earlierMigrated).recorded = [1, 3] ∧
      assertSchemaCurrent id laterDir
        (some (run MigrationSystem.step .empty earlierMigrated).recorded) = .ok 3 ∧
      Not (GateExact id laterDir laterBuild
        (run MigrationSystem.step .empty earlierMigrated).recorded) := by
  refine ⟨by decide, by rfl, ?_⟩
  intro exact
  have pass : assertSchemaCurrent id laterDir
      (some (run MigrationSystem.step .empty earlierMigrated).recorded) = .ok 3 := by rfl
  have second := (exact.passes.mp ⟨3, pass⟩ 2).mpr (by decide)
  exact absurd second (by decide)

end PgJobQ
