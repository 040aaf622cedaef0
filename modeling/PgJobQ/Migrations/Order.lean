import PgJobQ.Migrations.Migrate

/-!
# Migrations apply once and in order

There is no lock.  Each call has computed what is pending from a snapshot, and
several may try the same migration.  What separates them is the key of the
bookkeeping row, inside the transaction: only one of them can hold it, and none
once it is recorded.  A call that is refused ends, so no call passes a migration
that is not recorded.  The recorded versions therefore grow along the list.

The builds of the calls are initial parts of one list.
-/

namespace PgJobQ

open Runs

/-- The recorded versions are those whose SQL has committed, each once, and form
an initial part of the list. -/
structure AppliedInOrder (all : Build) (system : MigrationSystem) : Prop where
  exact : recordedVersions system.recorded = system.committed.map Migration.version
  once : (system.committed.map Migration.version).Nodup
  isInitial : Exists fun count : Nat =>
    (recordedVersions system.recorded).Perm (all.versions.take count)

/-- A database in which an initial part of the list is recorded. -/
structure MigrationStart (all : Build) where
  recorded : List AppliedMigration
  committed : List Migration
  exact : recordedVersions recorded = committed.map Migration.version
  count : Nat
  isInitial : (recordedVersions recorded).Perm (all.versions.take count)

def MigrationStart.system {all : Build} (start : MigrationStart all) : MigrationSystem :=
  ⟨start.recorded, start.committed, [], fun _ => none⟩

/-- A call is made with an initial part of the list. -/
def MigrationLabel.Of (all : Build) : MigrationLabel -> Prop
  | .call _ build => build.migrations <+: all.migrations
  | _ => True

/-! ## Initial parts of a list -/

/-- An initial part that lacks an element and has all before it ends there. -/
theorem take_eq_of_missing {list done tail present : List Nat} {value count : Nat}
    (distinct : list.Nodup) (split : list = done ++ value :: tail)
    (perm : present.Perm (list.take count)) (missing : Not (value ∈ present))
    (past : forall earlier, earlier ∈ done -> earlier ∈ present) : list.take count = done := by
  have initial : done <+: list := ⟨value :: tail, split.symm⟩
  rcases List.prefix_or_prefix_of_prefix (List.take_prefix count list) initial with
    ⟨more, isMore⟩ | ⟨more, isMore⟩
  · cases more with
    | nil => rw [← isMore, List.append_nil]
    | cons first rest =>
        have inDone : first ∈ done := isMore ▸ List.mem_append_right _ List.mem_cons_self
        have taken := perm.mem_iff.mp (past first inDone)
        have doneDistinct : done.Nodup := distinct.sublist initial.sublist
        rw [← isMore] at doneDistinct
        exact absurd rfl ((List.nodup_append.mp doneDistinct).2.2 first taken first List.mem_cons_self)
  · cases more with
    | nil => rw [← isMore, List.append_nil]
    | cons first rest =>
        have again : done ++ first :: (rest ++ list.drop count) = done ++ value :: tail := by
          calc
            done ++ first :: (rest ++ list.drop count) = (done ++ first :: rest) ++ list.drop count := by
              rw [List.append_assoc, List.cons_append]
            _ = list := by rw [isMore, List.take_append_drop]
            _ = done ++ value :: tail := split
        have isValue := (List.cons.inj (List.append_cancel_left again)).1
        apply absurd (perm.mem_iff.mpr _) missing
        rw [← isMore, ← isValue]
        exact List.mem_append_right _ List.mem_cons_self

/-- What is pending is the rest of the list. -/
theorem pendingMigrations_eq_drop {all build : Build} {recorded : List AppliedMigration}
    {count : Nat} (initial : build.migrations <+: all.migrations)
    (perm : (recordedVersions recorded).Perm (all.versions.take count)) :
    pendingMigrations build recorded = build.migrations.drop count := by
  rcases initial with ⟨more, isMore⟩
  have split : all.versions = build.versions ++ more.map Migration.version := by
    unfold Build.versions
    rw [← isMore, List.map_append]
  have recordedFirst : forall migration, migration ∈ build.migrations.take count ->
      migration.version ∈ recordedVersions recorded := by
    intro migration member
    apply perm.mem_iff.mpr
    rw [split, List.take_append]
    apply List.mem_append_left
    unfold Build.versions
    rw [← List.map_take]
    exact List.mem_map_of_mem member
  have laterPending : forall migration, migration ∈ build.migrations.drop count ->
      Not (migration.version ∈ recordedVersions recorded) := by
    intro migration member recordedToo
    have taken := perm.mem_iff.mp recordedToo
    have short : count < build.migrations.length := by
      have long := List.length_pos_of_mem member
      rw [List.length_drop] at long
      omega
    rw [split, List.take_append_of_le_length (by unfold Build.versions; rw [List.length_map]; omega)]
      at taken
    have distinct := build.nodup_versions
    rw [← List.take_append_drop count build.versions] at distinct
    refine absurd rfl ((List.nodup_append.mp distinct).2.2 _ taken migration.version ?_)
    unfold Build.versions
    rw [← List.map_drop]
    exact List.mem_map_of_mem member
  have firstDone : (build.migrations.take count).filter (fun migration =>
      !(recordedVersions recorded).contains migration.version) = [] := by
    apply List.filter_eq_nil_iff.mpr
    intro migration member
    simpa using recordedFirst migration member
  have laterKept : (build.migrations.drop count).filter (fun migration =>
      !(recordedVersions recorded).contains migration.version) = build.migrations.drop count := by
    apply List.filter_eq_self.mpr
    intro migration member
    simpa using laterPending migration member
  calc
    pendingMigrations build recorded =
        (build.migrations.take count ++ build.migrations.drop count).filter (fun migration =>
          !(recordedVersions recorded).contains migration.version) := by
      rw [List.take_append_drop]
      rfl
    _ = build.migrations.drop count := by rw [List.filter_append, firstDone, laterKept, List.nil_append]

/-! ## The invariant -/

/-- Everything of the build before the pending migrations is recorded. -/
def Behind (build : Build) (recorded : List AppliedMigration) (pending : List Migration) : Prop :=
  Exists fun done : List Migration => build.migrations = done ++ pending ∧
    forall migration, migration ∈ done -> migration.version ∈ recordedVersions recorded

/-- What a call knows in each of its phases. -/
def MigratePhase.Knows (build : Build) (recorded : List AppliedMigration)
    (uncommitted : List Nat) : MigratePhase -> Prop
  | applying pending _ => Behind build recorded pending
  | executed migration rest _ => Behind build recorded (migration :: rest)
  | booked migration rest _ =>
      Behind build recorded (migration :: rest) ∧ migration.version ∈ uncommitted
  | _ => True

/-- The version whose key a phase holds. -/
def MigratePhase.holds : MigratePhase -> Option Nat
  | booked migration _ _ => some migration.version
  | _ => none

theorem Behind.mono {build : Build} {recorded later : List AppliedMigration}
    {pending : List Migration} (behind : Behind build recorded pending)
    (grows : forall version, version ∈ recordedVersions recorded ->
      version ∈ recordedVersions later) : Behind build later pending := by
  rcases behind with ⟨done, split, past⟩
  exact ⟨done, split, fun migration member => grows _ (past migration member)⟩

/-- What a call knows stays true while more is recorded and its key is held. -/
theorem MigratePhase.Knows.mono {build : Build} {recorded later : List AppliedMigration}
    {uncommitted held : List Nat} {phase : MigratePhase}
    (knows : phase.Knows build recorded uncommitted)
    (grows : forall version, version ∈ recordedVersions recorded ->
      version ∈ recordedVersions later)
    (keeps : forall version, phase.holds = some version -> version ∈ held) :
    phase.Knows build later held := by
  cases phase with
  | applying pending applied => exact Behind.mono knows grows
  | executed migration rest applied => exact Behind.mono knows grows
  | booked migration rest applied => exact ⟨Behind.mono knows.1 grows, keeps _ rfl⟩
  | _ => exact trivial

theorem MigratePhase.Knows.held {build : Build} {recorded : List AppliedMigration}
    {uncommitted : List Nat} {phase : MigratePhase} {version : Nat}
    (knows : phase.Knows build recorded uncommitted) (holds : phase.holds = some version) :
    version ∈ uncommitted := by
  cases phase with
  | booked migration rest applied =>
      cases holds
      exact knows.2
  | _ => cases holds

structure MigrationInvariant (all : Build) (system : MigrationSystem) : Prop where
  applied : AppliedInOrder all system
  fresh : forall version, version ∈ system.uncommitted ->
    Not (version ∈ recordedVersions system.recorded)
  distinct : system.uncommitted.Nodup
  alone : forall first second call other version, system.calls first = some call ->
    system.calls second = some other -> call.phase.holds = some version ->
      other.phase.holds = some version -> first = second
  calls : forall index call, system.calls index = some call ->
    call.build.migrations <+: all.migrations ∧
      call.phase.Knows call.build system.recorded system.uncommitted

theorem MigrationInvariant.start {all : Build} (start : MigrationStart all) :
    MigrationInvariant all start.system where
  applied := by
    refine ⟨start.exact, ?_, start.count, start.isInitial⟩
    show (start.committed.map Migration.version).Nodup
    rw [← start.exact]
    exact start.isInitial.nodup_iff.mpr (all.nodup_versions.sublist (List.take_sublist _ _))
  fresh := fun _ member => absurd member List.not_mem_nil
  distinct := List.nodup_nil
  alone := fun _ _ _ _ _ present => by cases present
  calls := fun _ _ present => by cases present

namespace MigrationSystem

theorem put_cases {system : MigrationSystem} {index other : Nat} {build : Build}
    {phase : MigratePhase} {call : MigrateCall}
    (present : (system.put index build phase).calls other = some call) :
    (other = index ∧ call = ⟨build, phase⟩) ∨
      (other ≠ index ∧ system.calls other = some call) := by
  by_cases same : other = index
  · subst same
    simp only [put, Function.update_self] at present
    cases present
    exact Or.inl ⟨rfl, rfl⟩
  · simp only [put, Function.update_of_ne same] at present
    exact Or.inr ⟨same, present⟩

end MigrationSystem

namespace MigrationInvariant

variable {all : Build} {system : MigrationSystem} {index : Nat} {build : Build}

/-- A call goes on to a phase that holds no key. -/
theorem put (invariant : MigrationInvariant all system) {phase : MigratePhase}
    (initial : build.migrations <+: all.migrations) (free : phase.holds = none)
    (knows : phase.Knows build system.recorded system.uncommitted) :
    MigrationInvariant all (system.put index build phase) where
  applied := ⟨invariant.applied.exact, invariant.applied.once, invariant.applied.isInitial⟩
  fresh := invariant.fresh
  distinct := invariant.distinct
  alone := by
    intro first second call other version present otherPresent holds otherHolds
    rcases MigrationSystem.put_cases present with ⟨_, rfl⟩ | ⟨_, before⟩
    · rw [free] at holds
      cases holds
    · rcases MigrationSystem.put_cases otherPresent with ⟨_, rfl⟩ | ⟨_, otherBefore⟩
      · rw [free] at otherHolds
        cases otherHolds
      · exact invariant.alone first second call other version before otherBefore holds otherHolds
  calls := by
    intro other call present
    rcases MigrationSystem.put_cases present with ⟨_, rfl⟩ | ⟨_, before⟩
    · exact ⟨initial, knows⟩
    · exact invariant.calls other call before

/-- The bookkeeping row is inserted, refused or has to wait. -/
theorem book (invariant : MigrationInvariant all system) {migration : Migration}
    {rest : List Migration} {applied : List Nat}
    (initial : build.migrations <+: all.migrations)
    (behind : Behind build system.recorded (migration :: rest)) :
    MigrationInvariant all (system.book index build migration rest applied) := by
  unfold MigrationSystem.book
  split
  · exact invariant.put initial rfl trivial
  · rename_i accepted
    have missing := (not_or.mp accepted).2
    split
    · exact invariant
    · rename_i unheld
      refine ⟨⟨invariant.applied.exact, invariant.applied.once, invariant.applied.isInitial⟩,
        ?_, List.nodup_cons.mpr ⟨unheld, invariant.distinct⟩, ?_, ?_⟩
      · intro version member
        rcases List.mem_cons.mp member with rfl | earlier
        · exact missing
        · exact invariant.fresh version earlier
      · have others : forall other call version, system.calls other = some call ->
            call.phase.holds = some version -> version ≠ migration.version := by
          intro other call version present holds same
          exact unheld (same ▸ (invariant.calls other call present).2.held holds)
        intro first second call other version present otherPresent holds otherHolds
        rcases MigrationSystem.put_cases present with ⟨rfl, rfl⟩ | ⟨_, before⟩
        · cases holds
          rcases MigrationSystem.put_cases otherPresent with ⟨rfl, _⟩ | ⟨_, otherBefore⟩
          · rfl
          · exact absurd rfl (others second other _ otherBefore otherHolds)
        · rcases MigrationSystem.put_cases otherPresent with ⟨rfl, rfl⟩ | ⟨_, otherBefore⟩
          · cases otherHolds
            exact absurd rfl (others first call _ before holds)
          · exact invariant.alone first second call other version before otherBefore holds otherHolds
      · intro other call present
        rcases MigrationSystem.put_cases present with ⟨_, rfl⟩ | ⟨_, before⟩
        · exact ⟨initial, behind, List.mem_cons_self⟩
        · rcases invariant.calls other call before with ⟨otherInitial, knows⟩
          exact ⟨otherInitial, knows.mono (fun _ member => member)
            (fun version holds => List.mem_cons_of_mem _ (knows.held holds))⟩

/-- The holder of a key ends its transaction and releases it. -/
theorem settle (invariant : MigrationInvariant all system) {after : MigrationSystem}
    {call : MigrateCall} {migration : Migration} {phase : MigratePhase}
    (present : system.calls index = some call) (holds : call.phase.holds = some migration.version)
    (sameKeys : after.uncommitted = system.uncommitted) (sameCalls : after.calls = system.calls)
    (applied : AppliedInOrder all after)
    (grows : forall version, version ∈ recordedVersions system.recorded ->
      version ∈ recordedVersions after.recorded)
    (only : forall version, version ∈ recordedVersions after.recorded ->
      version ∈ recordedVersions system.recorded ∨ version = migration.version)
    (initial : build.migrations <+: all.migrations) (free : phase.holds = none)
    (knows : phase.Knows build after.recorded (after.release migration).uncommitted) :
    MigrationInvariant all ((after.release migration).put index build phase) := by
  have erased : forall version, version ∈ (after.release migration).uncommitted <->
      version ≠ migration.version ∧ version ∈ system.uncommitted := by
    intro version
    unfold MigrationSystem.release
    rw [sameKeys]
    exact invariant.distinct.mem_erase_iff
  have before : forall other otherCall,
      ((after.release migration).put index build phase).calls other = some otherCall ->
        (other = index ∧ otherCall = ⟨build, phase⟩) ∨
          (other ≠ index ∧ system.calls other = some otherCall) := by
    intro other otherCall found
    rw [← sameCalls]
    exact MigrationSystem.put_cases found
  refine ⟨⟨applied.exact, applied.once, applied.isInitial⟩, ?_, ?_, ?_, ?_⟩
  · intro version held recorded
    have kept := (erased version).mp held
    rcases only version recorded with earlier | same
    · exact invariant.fresh version kept.2 earlier
    · exact kept.1 same
  · show (after.release migration).uncommitted.Nodup
    unfold MigrationSystem.release
    rw [sameKeys]
    exact invariant.distinct.erase _
  · intro first second firstCall secondCall version firstFound secondFound firstHolds secondHolds
    rcases before first firstCall firstFound with ⟨_, rfl⟩ | ⟨_, firstBefore⟩
    · rw [free] at firstHolds
      cases firstHolds
    · rcases before second secondCall secondFound with ⟨_, rfl⟩ | ⟨_, secondBefore⟩
      · rw [free] at secondHolds
        cases secondHolds
      · exact invariant.alone first second firstCall secondCall version firstBefore secondBefore
          firstHolds secondHolds
  · intro other otherCall found
    rcases before other otherCall found with ⟨_, rfl⟩ | ⟨apart, earlier⟩
    · exact ⟨initial, knows⟩
    · rcases invariant.calls other otherCall earlier with ⟨otherInitial, otherKnows⟩
      refine ⟨otherInitial, otherKnows.mono grows ?_⟩
      intro version otherHolds
      apply (erased version).mpr
      refine ⟨?_, otherKnows.held otherHolds⟩
      rintro rfl
      exact apart (invariant.alone other index otherCall call _ earlier present otherHolds holds)

/-- A commit appends the next version of the list. -/
theorem commit (invariant : MigrationInvariant all system) {migration : Migration}
    {rest : List Migration} {applied : List Nat} (now : Timestamp) (answered : Bool)
    (present : system.calls index = some ⟨build, .booked migration rest applied⟩) :
    MigrationInvariant all (system.step (.commit index now answered)) := by
  rcases invariant.calls index _ present with ⟨initial, ⟨done, split, past⟩, held⟩
  have missing := invariant.fresh migration.version held
  have recordedAfter : recordedVersions (system.publish migration now).recorded =
      recordedVersions system.recorded ++ [migration.version] := by
    unfold MigrationSystem.publish recordedVersions
    rw [List.map_append]
    rfl
  have appliedAfter : AppliedInOrder all (system.publish migration now) := by
    refine ⟨?_, ?_, (done.map Migration.version).length + 1, ?_⟩
    · rw [recordedAfter, invariant.applied.exact]
      show system.committed.map Migration.version ++ [migration.version] =
        (system.committed ++ [migration]).map Migration.version
      rw [List.map_append]
      rfl
    · show ((system.committed ++ [migration]).map Migration.version).Nodup
      rw [List.map_append, ← invariant.applied.exact]
      apply List.Nodup.append _ (List.nodup_singleton _)
      · intro version earlier new
        rw [List.mem_singleton.mp new] at earlier
        exact missing earlier
      · rw [invariant.applied.exact]
        exact invariant.applied.once
    · rcases initial with ⟨more, isMore⟩
      rcases invariant.applied.isInitial with ⟨count, perm⟩
      have whole : all.versions = done.map Migration.version ++
          migration.version :: (rest ++ more).map Migration.version := by
        unfold Build.versions
        rw [← isMore, split, List.append_assoc, List.map_append]
        rfl
      have stops := take_eq_of_missing all.nodup_versions whole perm missing (by
        intro version member
        rcases List.mem_map.mp member with ⟨earlier, listed, rfl⟩
        exact past earlier listed)
      rw [stops] at perm
      rw [recordedAfter, whole, List.take_length_add_append]
      exact perm.append_right [migration.version]
  have behind : Behind build (system.publish migration now).recorded rest := by
    refine ⟨done ++ [migration], split.trans (by simp), ?_⟩
    intro earlier member
    rw [recordedAfter]
    rcases List.mem_append.mp member with before | last
    · exact List.mem_append_left _ (past earlier before)
    · rw [List.mem_singleton.mp last]
      exact List.mem_append_right _ (List.mem_singleton_self _)
  simp only [MigrationSystem.step, present]
  refine @settle all system index build invariant (system.publish migration now) _ migration _
    present rfl rfl rfl appliedAfter ?_ ?_ initial ?_ ?_
  · intro version member
    rw [recordedAfter]
    exact List.mem_append_left _ member
  · intro version member
    rw [recordedAfter] at member
    rcases List.mem_append.mp member with earlier | new
    · exact Or.inl earlier
    · exact Or.inr (List.mem_singleton.mp new)
  · cases answered with
    | false => rfl
    | true => cases rest <;> rfl
  · cases answered with
    | false => exact trivial
    | true =>
        cases rest with
        | nil => exact trivial
        | cons following later => exact behind

/-- After its read a call is behind its pending migrations. -/
theorem knows_phaseAfterRead (invariant : MigrationInvariant all system)
    (initial : build.migrations <+: all.migrations) :
    (phaseAfterRead build system.recorded).holds = none ∧
      (phaseAfterRead build system.recorded).Knows build system.recorded system.uncommitted := by
  rcases invariant.applied.isInitial with ⟨count, perm⟩
  have isDrop := pendingMigrations_eq_drop initial perm
  unfold phaseAfterRead
  split
  · exact ⟨rfl, trivial⟩
  · split
    · exact ⟨rfl, trivial⟩
    · rename_i migration rest isPending
      refine ⟨rfl, build.migrations.take count, ?_, ?_⟩
      · rw [← isPending, isDrop, List.take_append_drop]
      · intro earlier member
        apply perm.mem_iff.mpr
        rcases initial with ⟨more, isMore⟩
        unfold Build.versions
        rw [← isMore, ← List.map_take, List.take_append]
        exact List.mem_map_of_mem (List.mem_append_left _ member)

/-- A step of a call. -/
theorem step (invariant : MigrationInvariant all system) {label : MigrationLabel}
    (isOf : label.Of all) : MigrationInvariant all (system.step label) := by
  cases label with
  | call index build =>
      unfold MigrationSystem.step
      dsimp only
      split
      · exact @put all system index build invariant .reading isOf rfl trivial
      · exact invariant
  | read index =>
      unfold MigrationSystem.step
      dsimp only
      split
      · rename_i build present
        have initial := (invariant.calls index _ present).1
        have phase := invariant.knows_phaseAfterRead initial
        exact invariant.put initial phase.1 phase.2
      · exact invariant
  | execute index =>
      unfold MigrationSystem.step
      dsimp only
      split
      · rename_i build migration rest applied present
        rcases invariant.calls index _ present with ⟨initial, behind⟩
        exact @put all system index build invariant (.executed migration rest applied) initial rfl behind
      · exact invariant
  | book index =>
      unfold MigrationSystem.step
      dsimp only
      split
      · rename_i build migration rest applied present
        rcases invariant.calls index _ present with ⟨initial, behind⟩
        exact invariant.book initial behind
      · exact invariant
  | commit index now answered =>
      cases present : system.calls index with
      | none =>
          simp only [MigrationSystem.step, present]
          exact invariant
      | some call =>
          rcases call with ⟨build, phase⟩
          cases phase with
          | booked migration rest applied => exact invariant.commit now answered present
          | _ =>
              simp only [MigrationSystem.step, present]
              exact invariant
  | fail index =>
      unfold MigrationSystem.step
      dsimp only
      split
      · rename_i build migration rest applied present
        have initial := (invariant.calls index _ present).1
        exact @settle all system index build invariant system _ migration .failed present rfl rfl rfl
          invariant.applied (fun _ member => member) (fun _ member => Or.inl member) initial rfl trivial
      · exact invariant
      · exact invariant
      · rename_i build phase _ _ _ present
        exact @put all system index build invariant .failed (invariant.calls index _ present).1 rfl trivial
      · exact invariant

theorem run (invariant : MigrationInvariant all system) {labels : List MigrationLabel}
    (ofAll : forall label, label ∈ labels -> label.Of all) :
    MigrationInvariant all (Runs.run MigrationSystem.step system labels) :=
  @run_invariant_of_allowed _ _ MigrationSystem.step (MigrationInvariant all)
    (fun label => label.Of all) (fun _ _ isOf kept => kept.step isOf) system invariant labels ofAll

end MigrationInvariant

/-! ## Checksums -/

/-- Each recorded checksum is that of its file. -/
def Unedited (all : Build) (recorded : List AppliedMigration) : Prop :=
  forall row migration, row ∈ recorded -> migration ∈ all.migrations ->
    row.version = migration.version -> row.checksum = migration.checksum

theorem checkChecksums_ok_iff {recorded : List AppliedMigration} {migrations : List Migration}
    (distinct : (recordedVersions recorded).Nodup) :
    checkChecksums recorded migrations = .ok () <->
      forall row migration, row ∈ recorded -> migration ∈ migrations ->
        row.version = migration.version -> row.checksum = migration.checksum := by
  induction migrations with
  | nil => exact ⟨fun _ _ _ _ member => absurd member List.not_mem_nil, fun _ => rfl⟩
  | cons migration rest inductionHypothesis =>
      have split : (forall row other, row ∈ recorded -> other ∈ migration :: rest ->
          row.version = other.version -> row.checksum = other.checksum) <->
          (forall row, row ∈ recorded -> row.version = migration.version ->
            row.checksum = migration.checksum) ∧
          forall row other, row ∈ recorded -> other ∈ rest ->
            row.version = other.version -> row.checksum = other.checksum := by
        constructor
        · exact fun every => ⟨fun row member => every row migration member List.mem_cons_self,
            fun row other member later => every row other member (List.mem_cons_of_mem _ later)⟩
        · rintro ⟨first, others⟩ row other member listed
          rcases List.mem_cons.mp listed with rfl | later
          · exact first row member
          · exact others row other member later
      rw [split, ← inductionHypothesis]
      cases found : recorded.find? (fun previous => previous.version == migration.version) with
      | none =>
          have unrecorded := List.find?_eq_none.mp found
          conv_lhs => rw [checkChecksums, found]
          exact (and_iff_right (fun row member same =>
            absurd (beq_iff_eq.mpr same) (unrecorded row member))).symm
      | some previous =>
          have listed := List.mem_of_find?_eq_some found
          have version : previous.version = migration.version :=
            eq_of_beq (@List.find?_some _
              (fun previous : AppliedMigration => previous.version == migration.version) _ _ found)
          have isRow : (forall row, row ∈ recorded -> row.version = migration.version ->
              row.checksum = migration.checksum) <-> previous.checksum = migration.checksum := by
            constructor
            · exact fun every => every previous listed version
            · intro same row member rowVersion
              rw [List.inj_on_of_nodup_map distinct member listed (rowVersion.trans version.symm)]
              exact same
          conv_lhs => rw [checkChecksums, found]
          rw [isRow]
          by_cases same : previous.checksum = migration.checksum
          · simp only [same, ne_eq, not_true_eq_false, if_false, true_and]
          · simp only [same, ne_eq, not_false_eq_true, if_true, reduceCtorEq, false_and]

/-! ## A call that is not disturbed -/

/-- The steps of one transaction. -/
def migrationRound (index : Nat) (now : Timestamp) : List MigrationLabel :=
  [.execute index, .book index, .commit index now true]

/-- The steps of a call with so many pending migrations. -/
def undisturbed (index : Nat) (build : Build) (now : Timestamp) (pending : Nat) :
    List MigrationLabel :=
  .call index build :: .read index :: (List.replicate pending (migrationRound index now)).flatten

namespace MigrationSystem

/-- Nobody holds the key of an uncommitted row, and the call is about to apply
the migrations. -/
structure Ready (system : MigrationSystem) (index : Nat) (build : Build) (applied : List Nat)
    (pending : List Migration) : Prop where
  call : system.calls index = some ⟨build, phaseAfterCommit build applied pending⟩
  unheld : system.uncommitted = []
  distinct : (pending.map Migration.version).Nodup
  missing : forall migration, migration ∈ pending ->
    Not (migration.version ∈ recordedVersions system.recorded)
  fits : forall migration, migration ∈ pending -> migration.version ≤ maxVersion

theorem Ready.round {system : MigrationSystem} {index : Nat} {build : Build} {applied : List Nat}
    {migration : Migration} {rest : List Migration}
    (ready : system.Ready index build applied (migration :: rest)) (now : Timestamp) :
    let after := run step system (migrationRound index now)
    after.Ready index build (applied ++ [migration.version]) rest ∧
      after.recorded = system.recorded ++ [migration.record now] ∧
      after.committed = system.committed ++ [migration] := by
  have call : system.calls index = some ⟨build, .applying (migration :: rest) applied⟩ :=
    ready.call
  have missing := ready.missing migration List.mem_cons_self
  have fits := ready.fits migration List.mem_cons_self
  have distinct := List.nodup_cons.mp ready.distinct
  have accepted : Not (maxVersion < migration.version ∨
      migration.version ∈ recordedVersions system.recorded) :=
    not_or.mpr ⟨Nat.not_lt.mpr fits, missing⟩
  have unheld : Not (migration.version ∈ system.uncommitted) := by
    rw [ready.unheld]
    exact List.not_mem_nil
  have isAfter : run step system (migrationRound index now) =
      ((({ system with uncommitted := migration.version :: system.uncommitted }.put index build
        (.booked migration rest applied)).publish migration now).release migration).put index build
          (phaseAfterCommit build (applied ++ [migration.version]) rest) := by
    have executes : system.step (.execute index) =
        system.put index build (.executed migration rest applied) := by
      simp only [step, call]
    have books : (system.put index build (.executed migration rest applied)).step (.book index) =
        { system with uncommitted := migration.version :: system.uncommitted }.put index build
          (.booked migration rest applied) := by
      simp only [step, put, book, Function.update_self, Function.update_idem, if_neg accepted,
        if_neg unheld]
    have commits : forall before : MigrationSystem,
        before.calls index = some ⟨build, .booked migration rest applied⟩ ->
          before.step (.commit index now true) =
            ((before.publish migration now).release migration).put index build
              (phaseAfterCommit build (applied ++ [migration.version]) rest) := by
      intro before booked
      simp only [step, booked, if_true]
    show ((system.step (.execute index)).step (.book index)).step (.commit index now true) = _
    rw [executes, books, commits _ (Function.update_self _ _ _)]
  dsimp only
  rw [isAfter]
  refine ⟨⟨Function.update_self _ _ _, ?_, distinct.2, ?_, ?_⟩, rfl, rfl⟩
  · show (migration.version :: system.uncommitted).erase migration.version = []
    rw [List.erase_cons_head, ready.unheld]
  · intro other member recorded
    have listed : other.version ∈
        recordedVersions (system.recorded ++ [migration.record now]) := recorded
    unfold recordedVersions at listed
    rw [List.map_append] at listed
    rcases List.mem_append.mp listed with earlier | new
    · exact ready.missing other (List.mem_cons_of_mem _ member) earlier
    · exact distinct.1 (List.mem_map.mpr ⟨other, member, List.mem_singleton.mp new⟩)
  · exact fun other member => ready.fits other (List.mem_cons_of_mem _ member)

/-- The induction is on the pending migrations, one round for each. -/
theorem Ready.rounds {system : MigrationSystem} {index : Nat} {build : Build} {applied : List Nat}
    {pending : List Migration} (ready : system.Ready index build applied pending) (now : Timestamp) :
    let after := run step system
      (List.replicate pending.length (migrationRound index now)).flatten
    after.calls index = some ⟨build, .returned
        ⟨applied ++ pending.map Migration.version, false, latestVersion build⟩⟩ ∧
      after.recorded = system.recorded ++ pending.map (fun migration => migration.record now) ∧
      after.committed = system.committed ++ pending := by
  induction pending generalizing system applied with
  | nil =>
      refine ⟨?_, (List.append_nil _).symm, (List.append_nil _).symm⟩
      rw [List.map_nil, List.append_nil]
      exact ready.call
  | cons migration rest inductionHypothesis =>
      rcases ready.round now with ⟨later, recorded, committed⟩
      have isRun : (List.replicate (migration :: rest).length (migrationRound index now)).flatten =
          migrationRound index now ++
            (List.replicate rest.length (migrationRound index now)).flatten := rfl
      rw [isRun, run_append]
      rcases inductionHypothesis later with ⟨call, recordedLater, committedLater⟩
      refine ⟨?_, ?_, ?_⟩
      · rw [call, List.append_assoc]
        rfl
      · rw [recordedLater, recorded, List.append_assoc]
        rfl
      · rw [committedLater, committed, List.append_assoc]
        rfl

end MigrationSystem

/-- A call with the list, while nobody else holds the key of an uncommitted row,
applies exactly the rest of the list if no file has changed and the column has
room for its versions.  If a file has changed it throws. -/
structure Resumes (all : Build) (system : MigrationSystem) : Prop where
  applies : forall index now, system.calls index = none -> system.uncommitted = [] ->
    Unedited all system.recorded ->
    (forall migration, migration ∈ pendingMigrations all system.recorded ->
      migration.version ≤ MigrationSystem.maxVersion) ->
    Exists fun count : Nat =>
      let suffix := all.migrations.drop count
      let after := run MigrationSystem.step system (undisturbed index all now suffix.length)
      (recordedVersions system.recorded).Perm (all.versions.take count) ∧
        after.calls index = some ⟨all, .returned
          ⟨suffix.map Migration.version, suffix.isEmpty, latestVersion all⟩⟩ ∧
        after.recorded = system.recorded ++ suffix.map (fun migration => migration.record now) ∧
        after.committed = system.committed ++ suffix
  refuses : forall index, system.calls index = none -> Not (Unedited all system.recorded) ->
    Exists fun error : MigrationError =>
      (run MigrationSystem.step system [.call index all, .read index]).calls index =
        some ⟨all, .threw error⟩

namespace MigrationInvariant

variable {all : Build} {system : MigrationSystem}

theorem nodup_recorded (invariant : MigrationInvariant all system) :
    (recordedVersions system.recorded).Nodup := by
  rw [invariant.applied.exact]
  exact invariant.applied.once

/-- The first two steps of a call. -/
theorem run_read {index : Nat} (build : Build) (idle : system.calls index = none) :
    Runs.run MigrationSystem.step system [.call index build, .read index] =
      (system.put index build .reading).put index build (phaseAfterRead build system.recorded) := by
  have calls : system.step (.call index build) = system.put index build .reading := by
    simp only [MigrationSystem.step, idle]
  show (system.step (.call index build)).step (.read index) = _
  rw [calls]
  simp only [MigrationSystem.step, MigrationSystem.put, Function.update_self]

theorem resumes (invariant : MigrationInvariant all system) : Resumes all system where
  applies := by
    intro index now idle unheld unedited fits
    rcases invariant.applied.isInitial with ⟨count, perm⟩
    have isPending := pendingMigrations_eq_drop List.prefix_rfl perm
    have accepted : checkChecksums system.recorded all.migrations = .ok () :=
      (checkChecksums_ok_iff invariant.nodup_recorded).mpr unedited
    refine ⟨count, perm, ?_⟩
    rw [← isPending]
    have isRun : forall rounds, undisturbed index all now rounds =
        [.call index all, .read index] ++
          (List.replicate rounds (migrationRound index now)).flatten := fun _ => rfl
    rw [isRun, run_append, run_read all idle]
    cases pending : pendingMigrations all system.recorded with
    | nil =>
        have phase : phaseAfterRead all system.recorded =
            .returned ⟨[], true, latestVersion all⟩ := by
          simp only [phaseAfterRead, accepted, pending]
        rw [phase]
        exact ⟨Function.update_self _ _ _, (List.append_nil _).symm, (List.append_nil _).symm⟩
    | cons migration rest =>
        have phase : phaseAfterRead all system.recorded =
            phaseAfterCommit all [] (migration :: rest) := by
          simp only [phaseAfterRead, phaseAfterCommit, accepted, pending]
        rw [phase]
        have ready : MigrationSystem.Ready ((system.put index all .reading).put index all
            (phaseAfterCommit all [] (migration :: rest))) index all [] (migration :: rest) := by
          refine ⟨Function.update_self _ _ _, unheld, ?_, ?_, pending ▸ fits⟩
          · rw [← pending]
            exact all.nodup_versions.sublist (List.filter_sublist.map Migration.version)
          · intro other member recorded
            rw [← pending] at member
            have kept := (List.mem_filter.mp member).2
            simp only [Bool.not_eq_true', List.contains_eq_mem, decide_eq_false_iff_not] at kept
            exact kept recorded
        exact ready.rounds now
  refuses := by
    intro index idle changed
    have refused : checkChecksums system.recorded all.migrations ≠ .ok () :=
      fun accepted => changed ((checkChecksums_ok_iff invariant.nodup_recorded).mp accepted)
    rw [run_read all idle]
    cases check : checkChecksums system.recorded all.migrations with
    | ok => exact absurd check refused
    | error error =>
        refine ⟨error, ?_⟩
        unfold phaseAfterRead
        rw [check]
        exact Function.update_self _ _ _

/-- Whatever is recorded is recorded with the checksum of its file. -/
theorem unedited_step (invariant : MigrationInvariant all system) (unedited : Unedited all system.recorded)
    (label : MigrationLabel) : Unedited all (system.step label).recorded := by
  cases label with
  | commit index now answered =>
      cases present : system.calls index with
      | none =>
          simp only [MigrationSystem.step, present]
          exact unedited
      | some call =>
          rcases call with ⟨build, phase⟩
          cases phase with
          | booked migration rest applied =>
              rcases invariant.calls index _ present with ⟨initial, ⟨done, split, _⟩, _⟩
              simp only [MigrationSystem.step, present]
              intro row other member listed same
              rcases List.mem_append.mp member with earlier | new
              · exact unedited row other earlier listed same
              · rw [List.mem_singleton.mp new] at same ⊢
                have own : migration ∈ all.migrations := by
                  apply initial.subset
                  rw [split]
                  exact List.mem_append_right _ List.mem_cons_self
                rw [List.inj_on_of_nodup_map all.nodup_versions listed own same.symm]
                rfl
          | _ =>
              simp only [MigrationSystem.step, present]
              exact unedited
  | call index build =>
      unfold MigrationSystem.step
      dsimp only
      split <;> exact unedited
  | read index =>
      unfold MigrationSystem.step
      dsimp only
      split <;> exact unedited
  | execute index =>
      unfold MigrationSystem.step
      dsimp only
      split <;> exact unedited
  | book index =>
      unfold MigrationSystem.step MigrationSystem.book
      dsimp only
      repeat' split
      all_goals exact unedited
  | fail index =>
      unfold MigrationSystem.step
      dsimp only
      split <;> exact unedited

theorem unedited_run (invariant : MigrationInvariant all system) (unedited : Unedited all system.recorded)
    {labels : List MigrationLabel} (ofAll : forall label, label ∈ labels -> label.Of all) :
    Unedited all (Runs.run MigrationSystem.step system labels).recorded := by
  have kept := @run_invariant_of_allowed _ _ MigrationSystem.step
    (fun system => MigrationInvariant all system ∧ Unedited all system.recorded)
    (fun label => label.Of all)
    (fun _ label isOf both => ⟨both.1.step isOf, both.1.unedited_step both.2 label⟩)
    system ⟨invariant, unedited⟩ labels ofAll
  exact kept.2

end MigrationInvariant

/-- From a database in which an initial part of the list is recorded, in
whatever order any number of calls take their steps and wherever they fail or
stop: what is recorded has committed, once each, is an initial part of the list,
keeps the checksums of the files, and is completed by the next call that nothing
disturbs. -/
theorem migrations_apply_once {all : Build} (start : MigrationStart all)
    {labels : List MigrationLabel} (ofAll : forall label, label ∈ labels -> label.Of all) :
    AppliedInOrder all (run MigrationSystem.step start.system labels) ∧
      (Unedited all start.recorded ->
        Unedited all (run MigrationSystem.step start.system labels).recorded) ∧
      Resumes all (run MigrationSystem.step start.system labels) := by
  have invariant := MigrationInvariant.start start
  exact ⟨(invariant.run ofAll).applied, fun unedited => invariant.unedited_run unedited ofAll,
    (invariant.run ofAll).resumes⟩

/-- Two files. -/
def twoFiles : Build where
  migrations := [⟨1, "jobs", "001_jobs.sql", "CREATE TABLE job ()", "a"⟩,
    ⟨2, "keys", "002_keys.sql", "CREATE TABLE api_key ()", "b"⟩]
  ordered := by decide

/-- A new database. -/
def newDatabase : MigrationStart twoFiles where
  recorded := []
  committed := []
  exact := rfl
  count := 0
  isInitial := .nil

/-- Two calls read the same table.  The second one waits for the key of the
first, which commits, and is refused. -/
def racingCalls : List MigrationLabel :=
  [.call 0 twoFiles, .call 1 twoFiles, .read 0, .read 1, .execute 0, .execute 1, .book 0, .book 1,
    .commit 0 0 true, .book 1, .execute 0]

theorem racingCalls_apply_once :
    AppliedInOrder twoFiles (run MigrationSystem.step newDatabase.system racingCalls) ∧
      (Unedited twoFiles newDatabase.recorded ->
        Unedited twoFiles (run MigrationSystem.step newDatabase.system racingCalls).recorded) ∧
      Resumes twoFiles (run MigrationSystem.step newDatabase.system racingCalls) :=
  migrations_apply_once newDatabase (by
    intro label member
    simp only [racingCalls, List.mem_cons, List.not_mem_nil, or_false] at member
    rcases member with rfl | rfl | rfl | rfl | rfl | rfl | rfl | rfl | rfl | rfl | rfl
    all_goals first | exact List.prefix_rfl | exact trivial)

/-- One migration is recorded, and the second call has failed. -/
example : recordedVersions (run MigrationSystem.step newDatabase.system racingCalls).recorded = [1] ∧
    ((run MigrationSystem.step newDatabase.system racingCalls).calls 1).map MigrateCall.phase =
      some .failed := by decide

end PgJobQ
