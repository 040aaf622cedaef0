import Mathlib.Algebra.Group.Nat.Defs
import PgJobQ.Library.Months
import PgJobQ.Lifecycle.Retention
import PgJobQ.Scheduler.Schedule

/-!
# The partitions of the archive

`ensurePartitions` creates the partition of the current month and the one of
the next month.  It reckons months in UTC and writes their bounds as dates
without a time zone, which the database reads in the time zone of the session.
East of Greenwich the partitions begin before the months they are named after,
and west of it they begin after them.

So in the first hours of a month a western session has no partition for the
present, unless a call in one of the two months before has created it.
-/

namespace PgJobQ

open Runs IsoTime

/-! ## Texts -/

/-- One position of an anchored pattern. -/
inductive PatternChar where
  | digit
  | literal (c : Char)
  deriving DecidableEq

def PatternChar.accepts : PatternChar -> Char -> Bool
  | digit, c => c.isDigit
  | literal expected, c => c == expected

def matchesPattern : List PatternChar -> List Char -> Bool
  | [], [] => true
  | position :: pattern, c :: chars => position.accepts c && matchesPattern pattern chars
  | _, _ => false

/-- `/^job_archive_\d{4}_\d{2}$/`. -/
def identifierPattern : List PatternChar :=
  "job_archive_".toList.map .literal ++
    (List.replicate 4 .digit ++ ([.literal '_'] ++ List.replicate 2 .digit))

/-- `/^\d{4}-\d{2}-\d{2}$/`. -/
def datePattern : List PatternChar :=
  List.replicate 4 .digit ++ ([.literal '-'] ++ (List.replicate 2 .digit ++
    ([.literal '-'] ++ List.replicate 2 .digit)))

def assertSafeIdentifier (name : String) : Except String Unit :=
  if matchesPattern identifierPattern name.toList then .ok ()
  else .error ("Refusing to use unsafe partition identifier: " ++ name)

def assertSafeDate (d : String) : Except String Unit :=
  if matchesPattern datePattern d.toList then .ok ()
  else .error ("Refusing to use unsafe partition bound: " ++ d)

/-- A number in a template literal. -/
def decimal (number : Int) : List Char :=
  if number < 0 then '-' :: Nat.toDigits 10 number.natAbs else Nat.toDigits 10 number.toNat

/-- `job_archive_${year}_${String(month).padStart(2, '0')}`. -/
def partitionName (year : Int) (month : Nat) : String :=
  String.ofList ("job_archive_".toList ++ (decimal year ++ '_' :: padded 2 month))

/-- `d.toISOString().slice(0, 10)`. -/
def isoDate (d : Int) : Except String String :=
  match toISOString d with
  | some text => .ok (String.ofList (text.toList.take 10))
  | none => .error "Invalid time value"

/-! ## Statements -/

/-- The fixed offset of the session's time zone in seconds east of Greenwich. -/
structure SessionOffset where
  value : Int
  west : -43200 ≤ value
  east : value ≤ 50400

/-- A date read as a `timestamptz`: midnight in the time zone of the session. -/
def readBound (offset : SessionOffset) (date : String) : Option Timestamp :=
  let chars := date.toList
  let year := Nat.ofDigitChars 10 (chars.take 4) 0
  let month := Nat.ofDigitChars 10 ((chars.drop 5).take 2) 0
  let day := Nat.ofDigitChars 10 ((chars.drop 8).take 2) 0
  let inSequence : Int := year * 12 + month - 1
  if 1 ≤ year ∧ 1 ≤ month ∧ month ≤ 12 ∧ 1 ≤ day ∧ day ≤ monthLength inSequence then
    some (ofMillis (monthStart inSequence + (day - 1) * 86400000) - seconds offset.value)
  else none

/-- `CREATE TABLE IF NOT EXISTS ${name} PARTITION OF job_archive FOR VALUES
FROM ('${from}') TO ('${to}')`. -/
def createPartition (offset : SessionOffset) (name lower upper : String)
    (partitions : List ArchivePartition) : Except String (List ArchivePartition) :=
  if partitions.any (fun part => part.name == name) then .ok partitions
  else
    match readBound offset lower, readBound offset upper with
    | some low, some high =>
        if high ≤ low then .error ("empty range bound specified for partition " ++ name)
        else if partitions.any (fun part => part.lower < high && low < part.upper) then
          .error ("partition " ++ name ++ " would overlap partition")
        else .ok (partitions ++ [⟨name, low, high⟩])
    | _, _ => .error "invalid input syntax for type timestamp with time zone"

def createArchivePartition (offset : SessionOffset) (name lower upper : String)
    (partitions : List ArchivePartition) : Except String (List ArchivePartition) := do
  assertSafeIdentifier name
  assertSafeDate lower
  assertSafeDate upper
  createPartition offset name lower upper partitions

/-- The body of the loop of `ensurePartitions`. -/
def ensurePartition (offset : SessionOffset) (now monthOffset : Int)
    (partitions : List ArchivePartition) : Except String (List ArchivePartition) := do
  let start := dateUTC (fields now).year ((fields now).month - 1 + monthOffset)
  let finish := dateUTC (fields now).year ((fields now).month - 1 + monthOffset + 1)
  let name := partitionName (fields start).year (fields start).month
  let lower ← isoDate start
  let upper ← isoDate finish
  createArchivePartition offset name lower upper partitions

/-- The loop, which ends with the first error.  What was created stays. -/
def ensureEach (create : Int -> List ArchivePartition -> Except String (List ArchivePartition)) :
    List Int -> List ArchivePartition -> List ArchivePartition × Except String Unit
  | [], partitions => (partitions, .ok ())
  | monthOffset :: rest, partitions =>
      match create monthOffset partitions with
      | .ok created => ensureEach create rest created
      | .error error => (partitions, .error error)

/-- `Retention.ensurePartitions`, called when the clock shows `now`. -/
def ensurePartitions (offset : SessionOffset) (now : Int) (partitions : List ArchivePartition) :
    List ArchivePartition × Except String Unit :=
  ensureEach (ensurePartition offset now) [0, 1] partitions

/-! ## What is written is read -/

/-- The months whose names and bounds have years of four digits. -/
def Dated (month : Int) : Prop := 24000 ≤ month ∧ month ≤ 119989

theorem Dated.year {month : Int} (dated : Dated month) : 2000 ≤ month / 12 ∧ month / 12 ≤ 9999 := by
  unfold Dated at dated
  omega

theorem length_padded {width number : Nat} (small : number < 10 ^ width) (wide : 0 < width) :
    (padded width number).length = width := by
  have short := (Nat.length_toDigits_le_iff (by decide : 1 < 10) wide).mpr small
  unfold padded
  rw [List.length_append, List.length_replicate]
  omega

theorem matchesPattern_append {first second : List PatternChar} {chars others : List Char}
    (head : matchesPattern first chars = true) (tail : matchesPattern second others = true) :
    matchesPattern (first ++ second) (chars ++ others) = true := by
  induction first generalizing chars with
  | nil =>
      cases chars with
      | nil => exact tail
      | cons c chars => cases head
  | cons position first inductionHypothesis =>
      cases chars with
      | nil => cases head
      | cons c chars =>
          have parts := Bool.and_eq_true_iff.mp head
          exact Bool.and_eq_true_iff.mpr ⟨parts.1, inductionHypothesis parts.2⟩

theorem matchesPattern_digits {chars : List Char} {width : Nat}
    (digits : forall c, c ∈ chars -> c.isDigit = true) (length : chars.length = width) :
    matchesPattern (List.replicate width .digit) chars = true := by
  induction chars generalizing width with
  | nil =>
      subst length
      rfl
  | cons c chars inductionHypothesis =>
      subst length
      refine Bool.and_eq_true_iff.mpr ⟨digits c List.mem_cons_self, inductionHypothesis ?_ rfl⟩
      exact fun other member => digits other (List.mem_cons_of_mem c member)

theorem matchesPattern_padded {width number : Nat} (small : number < 10 ^ width)
    (wide : 0 < width) : matchesPattern (List.replicate width .digit) (padded width number) = true :=
  matchesPattern_digits (fun _ member => isDigit_of_mem_padded member) (length_padded small wide)

/-- A year of four digits needs no padding. -/
theorem decimal_eq_padded {year : Int} (low : 1000 ≤ year) (high : year ≤ 9999) :
    decimal year = padded 4 year.toNat := by
  have short := (@Nat.length_toDigits_le_iff 10 year.toNat 4 (by decide) (by decide)).mpr (by omega)
  have long := (@Nat.length_toDigits_le_iff 10 year.toNat 3 (by decide) (by decide)).not.mpr (by omega)
  unfold decimal padded
  rw [if_neg (by omega)]
  have full : 4 - (Nat.toDigits 10 year.toNat).length = 0 := by omega
  rw [full]
  rfl

/-- The date on which a month begins. -/
def monthDate (month : Int) : List Char :=
  padded 4 (month / 12).toNat ++ '-' :: (padded 2 ((month % 12).toNat + 1) ++ '-' :: padded 2 1)

theorem Dated.length_year {month : Int} (dated : Dated month) :
    (padded 4 (month / 12).toNat).length = 4 := by
  have range := dated.year
  exact length_padded (by omega) (by decide)

theorem length_monthOfYear (month : Int) : (padded 2 ((month % 12).toNat + 1)).length = 2 :=
  length_padded (by omega) (by decide)

theorem length_monthDate {month : Int} (dated : Dated month) : (monthDate month).length = 10 := by
  unfold monthDate
  rw [List.length_append, dated.length_year, List.length_cons, List.length_append,
    length_monthOfYear]
  rfl

theorem isoDate_monthStart {month : Int} (dated : Dated month) :
    isoDate (monthStart month) = .ok (String.ofList (monthDate month)) := by
  have early := @monthStart_le 24000 month dated.1
  have late := @monthStart_le month 119989 dated.2
  have first : monthStart 24000 = 946684800000 := by decide
  have last : monthStart 119989 = 253373443200000 := by decide
  have inRange : -8640000000000000 ≤ monthStart month ∧
      monthStart month ≤ 8640000000000000 := by
    unfold Dated at dated
    omega
  have year : 0 ≤ month / 12 ∧ month / 12 ≤ 9999 :=
    ⟨Int.le_trans (by decide) dated.year.1, dated.year.2⟩
  unfold isoDate toISOString
  rw [if_pos inRange, fields_monthStart]
  dsimp only
  rw [String.toList_ofList]
  have begins : Exists fun rest : List Char =>
      (Fields.text ⟨month / 12, (month % 12).toNat + 1, 1, 0, 0, 0, 0⟩) =
        monthDate month ++ rest := by
    refine ⟨'T' :: (padded 2 0 ++ ':' :: (padded 2 0 ++ ':' :: (padded 2 0 ++ '.' ::
      (padded 3 0 ++ ['Z'])))), ?_⟩
    unfold Fields.text monthDate yearText
    rw [if_pos year]
    simp only [List.append_assoc, List.cons_append]
  rcases begins with ⟨rest, text⟩
  rw [text, List.take_left' (length_monthDate dated)]

/-- A bound of a partition: the first of a month at midnight in the time zone of
the session. -/
def bound (offset : SessionOffset) (month : Int) : Timestamp :=
  ofMillis (monthStart month) - seconds offset.value

theorem readBound_monthDate (offset : SessionOffset) {month : Int} (dated : Dated month) :
    readBound offset (String.ofList (monthDate month)) = some (bound offset month) := by
  have range := dated.year
  have yearLength := dated.length_year
  have monthLength := length_monthOfYear month
  have year : (monthDate month).take 4 = padded 4 (month / 12).toNat := List.take_left' yearLength
  have afterYear : (monthDate month).drop 5 =
      padded 2 ((month % 12).toNat + 1) ++ '-' :: padded 2 1 := by
    have split : monthDate month = (padded 4 (month / 12).toNat ++ ['-']) ++
        (padded 2 ((month % 12).toNat + 1) ++ '-' :: padded 2 1) := by
      rw [List.append_assoc]
      rfl
    rw [split, List.drop_left' (by rw [List.length_append, yearLength]; rfl)]
  have inYear : ((monthDate month).drop 5).take 2 = padded 2 ((month % 12).toNat + 1) := by
    rw [afterYear, List.take_left' monthLength]
  have day : ((monthDate month).drop 8).take 2 = padded 2 1 := by
    have further : (monthDate month).drop 8 = ((monthDate month).drop 5).drop 3 := by
      rw [List.drop_drop]
    have split : padded 2 ((month % 12).toNat + 1) ++ '-' :: padded 2 1 =
        (padded 2 ((month % 12).toNat + 1) ++ ['-']) ++ padded 2 1 := by
      rw [List.append_assoc]
      rfl
    rw [further, afterYear, split, List.drop_left' (by rw [List.length_append, monthLength]; rfl)]
    rfl
  have long := (monthLength_range month).1
  have inSequence : ((month / 12).toNat : Int) * 12 + ((month % 12).toNat + 1 : Nat) - 1 = month := by
    omega
  unfold readBound
  dsimp only
  rw [String.toList_ofList, year, inYear, day, ofDigitChars_padded, ofDigitChars_padded,
    ofDigitChars_padded, inSequence, if_pos (by omega)]
  have first : monthStart month + (((1 : Nat) : Int) - 1) * 86400000 = monthStart month := by omega
  rw [first]
  rfl

theorem assertSafeDate_monthDate {month : Int} (dated : Dated month) :
    assertSafeDate (String.ofList (monthDate month)) = .ok () := by
  have range := dated.year
  unfold assertSafeDate
  rw [String.toList_ofList, if_pos]
  apply matchesPattern_append (matchesPattern_padded (by omega) (by decide))
  apply @matchesPattern_append [.literal '-'] _ ['-'] _ (by decide)
  apply matchesPattern_append (matchesPattern_padded (by omega) (by decide))
  exact @matchesPattern_append [.literal '-'] _ ['-'] _ (by decide)
    (matchesPattern_padded (by decide) (by decide))

/-- The name of the partition of a month. -/
def nameOf (month : Int) : String := partitionName (month / 12) ((month % 12).toNat + 1)

theorem assertSafeIdentifier_nameOf {month : Int} (dated : Dated month) :
    assertSafeIdentifier (nameOf month) = .ok () := by
  have range := dated.year
  unfold assertSafeIdentifier nameOf partitionName
  rw [String.toList_ofList, decimal_eq_padded (by omega) range.2, if_pos]
  apply matchesPattern_append (by decide)
  apply matchesPattern_append (matchesPattern_padded (by omega) (by decide))
  exact @matchesPattern_append [.literal '_'] _ ['_'] _ (by decide)
    (matchesPattern_padded (by omega) (by decide))

/-- Different months have different names. -/
theorem nameOf_inj {month other : Int} (dated : Dated month) (otherDated : Dated other)
    (same : nameOf month = nameOf other) : month = other := by
  have range := dated.year
  have otherRange := otherDated.year
  unfold nameOf partitionName at same
  have rest := List.append_cancel_left (String.ofList_injective same)
  rw [decimal_eq_padded (by omega) range.2, decimal_eq_padded (by omega) otherRange.2] at rest
  have parts := padded_append_inj (by decide : '_'.isDigit = false) rest
  have months := padded_inj parts.2
  omega

/-! ## The partitions of months -/

/-- The partition that is created for a month. -/
def partitionOf (offset : SessionOffset) (month : Int) : ArchivePartition :=
  ⟨nameOf month, bound offset month, bound offset (month + 1)⟩

theorem bound_le (offset : SessionOffset) {month later : Int} (order : month ≤ later) :
    bound offset month ≤ bound offset later := by
  have apart := monthStart_le order
  have starts : monthStart month * 1000 ≤ monthStart later * 1000 := by omega
  exact Int.sub_le_sub_right starts _

theorem bound_lt (offset : SessionOffset) (month : Int) :
    bound offset month < bound offset (month + 1) := by
  have apart := @monthStart_le month (month + 1) (by omega)
  have starts : monthStart month * 1000 < monthStart (month + 1) * 1000 := by omega
  exact Int.sub_lt_sub_right starts _

/-- Partitions of different months lie one after the other. -/
theorem partitionOf_apart (offset : SessionOffset) {month other : Int} (different : month ≠ other) :
    (partitionOf offset month).upper ≤ (partitionOf offset other).lower ∨
      (partitionOf offset other).upper ≤ (partitionOf offset month).lower := by
  rcases Int.lt_or_gt_of_ne different with earlier | later
  · exact Or.inl (bound_le offset earlier)
  · exact Or.inr (bound_le offset later)

/-- The months of which a partition exists, after one more was asked for. -/
def addMonth (months : List Int) (month : Int) : List Int :=
  if month ∈ months then months else months ++ [month]

theorem mem_addMonth {months : List Int} {month other : Int} :
    other ∈ addMonth months month <-> other ∈ months ∨ other = month := by
  unfold addMonth
  split
  · rename_i present
    exact ⟨Or.inl, fun either => either.elim id (fun same => same ▸ present)⟩
  · rw [List.mem_append, List.mem_singleton]

theorem nodup_addMonth {months : List Int} (distinct : months.Nodup) (month : Int) :
    (addMonth months month).Nodup := by
  unfold addMonth
  split
  · exact distinct
  · rename_i absent
    refine List.nodup_append.mpr ⟨distinct, List.nodup_singleton month, ?_⟩
    intro other member same isMonth equal
    rw [List.mem_singleton.mp isMonth] at equal
    exact absent (equal ▸ member)

/-- The months whose name and bounds can be written. -/
def Creatable (month : Int) : Prop := Dated month ∧ Dated (month + 1)

/-- The partition of a month overlaps none of other months. -/
theorem overlaps_none (offset : SessionOffset) {months : List Int} {month : Int}
    (absent : Not (month ∈ months)) : Not ((months.map (partitionOf offset)).any
      (fun part => part.lower < bound offset (month + 1) && bound offset month < part.upper) =
        true) := by
  rw [List.any_map, List.any_eq_true]
  rintro ⟨other, member, overlaps⟩
  have order : bound offset other < bound offset (month + 1) ∧
      bound offset month < bound offset (other + 1) :=
    And.imp of_decide_eq_true of_decide_eq_true (Bool.and_eq_true_iff.mp overlaps)
  have different : other ≠ month := fun same => absent (same ▸ member)
  rcases partitionOf_apart offset different with before | after
  · exact absurd order.2 (Int.not_lt.mpr before)
  · exact absurd order.1 (Int.not_lt.mpr after)

/-- The server creates the partition of a month unless there is one. -/
theorem createPartition_month (offset : SessionOffset) {months : List Int}
    (creatable : forall month, month ∈ months -> Creatable month) {month : Int}
    (wanted : Creatable month) :
    createPartition offset (nameOf month) (String.ofList (monthDate month))
        (String.ofList (monthDate (month + 1))) (months.map (partitionOf offset)) =
      .ok ((addMonth months month).map (partitionOf offset)) := by
  unfold createPartition addMonth
  by_cases present : month ∈ months
  · have named : (months.map (partitionOf offset)).any (fun part => part.name == nameOf month) =
        true := by
      rw [List.any_map, List.any_eq_true]
      exact ⟨month, present, beq_self_eq_true _⟩
    rw [if_pos named, if_pos present]
  · have unnamed : Not ((months.map (partitionOf offset)).any
        (fun part => part.name == nameOf month) = true) := by
      rw [List.any_map, List.any_eq_true]
      rintro ⟨other, member, same⟩
      have equal := nameOf_inj (creatable other member).1 wanted.1 (beq_iff_eq.mp same)
      exact present (equal ▸ member)
    rw [if_neg unnamed, if_neg present, readBound_monthDate offset wanted.1,
      readBound_monthDate offset wanted.2]
    dsimp only
    rw [if_neg (Int.not_le.mpr (bound_lt offset month)), if_neg (overlaps_none offset present),
      List.map_append]
    rfl

theorem createArchivePartition_month (offset : SessionOffset) {months : List Int}
    (creatable : forall month, month ∈ months -> Creatable month) {month : Int}
    (wanted : Creatable month) :
    createArchivePartition offset (nameOf month) (String.ofList (monthDate month))
        (String.ofList (monthDate (month + 1))) (months.map (partitionOf offset)) =
      .ok ((addMonth months month).map (partitionOf offset)) := by
  unfold createArchivePartition
  rw [assertSafeIdentifier_nameOf wanted.1, assertSafeDate_monthDate wanted.1,
    assertSafeDate_monthDate wanted.2]
  simp only [bind, Except.bind]
  exact createPartition_month offset creatable wanted

/-- One round of the loop, in a year that is written with more than two
digits. -/
theorem ensurePartition_month (offset : SessionOffset) {months : List Int}
    (creatable : forall month, month ∈ months -> Creatable month) {now monthOffset : Int}
    (full : 99 < (fields now).year) (wanted : Creatable (monthOf now + monthOffset)) :
    ensurePartition offset now monthOffset (months.map (partitionOf offset)) =
      .ok ((addMonth months (monthOf now + monthOffset)).map (partitionOf offset)) := by
  have month := monthOf_fields now
  have start : dateUTC (fields now).year ((fields now).month - 1 + monthOffset) =
      monthStart (monthOf now + monthOffset) := by
    rw [dateUTC_eq full, month]
    congr 1
    omega
  have finish : dateUTC (fields now).year ((fields now).month - 1 + monthOffset + 1) =
      monthStart (monthOf now + monthOffset + 1) := by
    rw [dateUTC_eq full, month]
    congr 1
    omega
  unfold ensurePartition
  dsimp only
  rw [start, finish, isoDate_monthStart wanted.1, isoDate_monthStart wanted.2,
    fields_monthStart]
  simp only [bind, Except.bind]
  exact createArchivePartition_month offset creatable wanted

/-! ## Calls and passes -/

/-- A time at which the calls are made: from 2000 to 9998. -/
structure CallTime where
  value : Int
  early : 2000 ≤ (fields value).year
  late : (fields value).year ≤ 9998

theorem CallTime.creatable (now : CallTime) :
    Creatable (monthOf now.value) ∧ Creatable (monthOf now.value + 1) := by
  have month := monthOf_fields now.value
  have range := month_range now.value
  have early := now.early
  have late := now.late
  unfold Creatable Dated
  omega

theorem ensurePartitions_months (offset : SessionOffset) {months : List Int}
    (creatable : forall month, month ∈ months -> Creatable month) (now : CallTime) :
    ensurePartitions offset now.value (months.map (partitionOf offset)) =
      ((addMonth (addMonth months (monthOf now.value)) (monthOf now.value + 1)).map
        (partitionOf offset), .ok ()) := by
  have wanted := now.creatable
  have early := now.early
  have full : 99 < (fields now.value).year := by omega
  have current : monthOf now.value + 0 = monthOf now.value := Int.add_zero _
  have first := @ensurePartition_month offset months creatable now.value 0 full
    (by rw [current]; exact wanted.1)
  rw [current] at first
  have both : forall month, month ∈ addMonth months (monthOf now.value) -> Creatable month := by
    intro month member
    rcases mem_addMonth.mp member with earlier | rfl
    · exact creatable month earlier
    · exact wanted.1
  have second := ensurePartition_month offset both full wanted.2
  simp only [ensurePartitions, ensureEach, first, second]

/-- The database, and the times at which `ensurePartitions` has been called,
newest first. -/
structure Archiving where
  db : Database
  calls : List Int

inductive ArchivingLabel where
  | ensurePartitions (now : CallTime)
  | statement (call : Call)

namespace Archiving

def start (config : QueueConfigTable) : Archiving := ⟨.empty [] config, []⟩

def step (offset : SessionOffset) (state : Archiving) : ArchivingLabel -> Archiving
  | .ensurePartitions now =>
      { db := { state.db with
          partitions := (PgJobQ.ensurePartitions offset now.value state.db.partitions).1 }
        calls := now.value :: state.calls }
  | .statement call => { state with db := state.db.step call }

/-- One of the calls was made a day before the time, at most. -/
def Recent (state : Archiving) (now : Timestamp) : Prop :=
  Exists fun time : Int => time ∈ state.calls ∧ ofMillis time ≤ now ∧
    now ≤ ofMillis time + seconds 86400

/-- The partitions have different names and do not overlap. -/
structure Apart (state : Archiving) : Prop where
  names : (state.db.partitions.map (·.name)).Nodup
  nonempty : forall part, part ∈ state.db.partitions -> part.lower < part.upper
  disjoint : state.db.partitions.Pairwise
    (fun one other => one.upper ≤ other.lower ∨ other.upper ≤ one.lower)

/-- No call fails, and an archive pass within a day after a call finds a
partition for the rows it moves. -/
def Provides (offset : SessionOffset) (state : Archiving) : ArchivingLabel -> Prop
  | .ensurePartitions now =>
      (PgJobQ.ensurePartitions offset now.value state.db.partitions).2 = .ok ()
  | .statement ⟨now, .archiveTerminalJobs _ _⟩ =>
      state.Recent now -> state.db.archives now = true
  | .statement _ => True

/-- The time lies in a month that has not yet begun in the session's time zone,
and no call was made in either of the two months before. -/
def Premature (offset : SessionOffset) (state : Archiving) (now : Timestamp) : Prop :=
  millis now + offset.value * 1000 < monthStart (monthOf (millis now)) ∧
    forall time, time ∈ state.calls ->
      monthOf time ≠ monthOf (millis now) - 1 ∧ monthOf time ≠ monthOf (millis now) - 2

/-- An archive pass within a day after a call is not premature. -/
def Timely (offset : SessionOffset) (state : Archiving) : ArchivingLabel -> Prop
  | .statement ⟨now, .archiveTerminalJobs _ _⟩ =>
      state.Recent now -> Not (state.Premature offset now)
  | _ => True

/-- The partitions are those of the months of the calls and of the months after
them. -/
structure Ensured (offset : SessionOffset) (state : Archiving) (months : List Int) : Prop where
  partitions : state.db.partitions = months.map (partitionOf offset)
  creatable : forall month, month ∈ months -> Creatable month
  distinct : months.Nodup
  called : forall month, month ∈ months <->
    Exists fun time : Int => time ∈ state.calls ∧ (month = monthOf time ∨ month = monthOf time + 1)

namespace Ensured

variable {offset : SessionOffset} {state : Archiving} {months : List Int}

theorem apart (ensured : Ensured offset state months) : state.Apart where
  names := by
    rw [ensured.partitions, List.map_map]
    refine List.Nodup.map_on ?_ ensured.distinct
    exact fun month member other otherMember same =>
      nameOf_inj (ensured.creatable month member).1 (ensured.creatable other otherMember).1 same
  nonempty := by
    rw [ensured.partitions]
    intro part member
    rcases List.mem_map.mp member with ⟨month, _, rfl⟩
    exact bound_lt offset month
  disjoint := by
    rw [ensured.partitions]
    exact List.pairwise_map.mpr (ensured.distinct.imp (fun different => partitionOf_apart offset different))

theorem start (offset : SessionOffset) (config : QueueConfigTable) :
    Ensured offset (.start config) [] where
  partitions := rfl
  creatable := fun _ member => absurd member List.not_mem_nil
  distinct := List.nodup_nil
  called := by
    intro month
    constructor
    · exact fun member => absurd member List.not_mem_nil
    · rintro ⟨time, member, _⟩
      exact absurd member List.not_mem_nil

theorem ensurePartitions (ensured : Ensured offset state months) (now : CallTime) :
    Ensured offset (state.step offset (.ensurePartitions now))
      (addMonth (addMonth months (monthOf now.value)) (monthOf now.value + 1)) where
  partitions := by
    have all := ensurePartitions_months offset ensured.creatable now
    rw [← ensured.partitions] at all
    exact congrArg Prod.fst all
  creatable := by
    intro month member
    rcases mem_addMonth.mp member with earlier | rfl
    · rcases mem_addMonth.mp earlier with before | rfl
      · exact ensured.creatable month before
      · exact now.creatable.1
    · exact now.creatable.2
  distinct := nodup_addMonth (nodup_addMonth ensured.distinct _) _
  called := by
    intro month
    rw [mem_addMonth, mem_addMonth, ensured.called, or_assoc]
    constructor
    · rintro (⟨time, member, isMonth⟩ | isMonth)
      · exact ⟨time, List.mem_cons_of_mem _ member, isMonth⟩
      · exact ⟨now.value, List.mem_cons_self, isMonth⟩
    · rintro ⟨time, member, isMonth⟩
      rcases List.mem_cons.mp member with rfl | earlier
      · exact Or.inr isMonth
      · exact Or.inl ⟨time, earlier, isMonth⟩

end Ensured

/-- The partition of a month covers a time when the session's clock shows the
month. -/
theorem bound_within_iff (offset : SessionOffset) (month now : Int) :
    (bound offset month ≤ now ∧ now < bound offset (month + 1)) <->
      monthOf (millis now + offset.value * 1000) = month := by
  have spec := monthOf_spec (now / 1000 + offset.value * 1000)
  change (monthStart month * 1000 - offset.value * 1000000 ≤ now ∧
    now < monthStart (month + 1) * 1000 - offset.value * 1000000) <->
      monthOf (now / 1000 + offset.value * 1000) = month
  constructor
  · rintro ⟨lower, upper⟩
    apply monthOf_eq
    · omega
    · omega
  · rintro rfl
    constructor
    · omega
    · omega

theorem Ensured.archives_iff {offset : SessionOffset} {state : Archiving} {months : List Int}
    (ensured : Ensured offset state months) (now : Timestamp) :
    state.db.archives now = true <-> monthOf (millis now + offset.value * 1000) ∈ months := by
  unfold Database.archives
  rw [ensured.partitions, List.any_map, List.any_eq_true]
  constructor
  · rintro ⟨month, member, within⟩
    have parts := And.imp of_decide_eq_true of_decide_eq_true (Bool.and_eq_true_iff.mp within)
    rwa [(bound_within_iff offset month now).mp parts]
  · intro member
    have parts := (bound_within_iff offset _ now).mpr rfl
    exact ⟨_, member, Bool.and_eq_true_iff.mpr (parts.imp decide_eq_true decide_eq_true)⟩

/-- The month of a time is not earlier than the month of an earlier time, and
within a day it is at most one later. -/
theorem monthOf_within_day {time now : Int} (order : time ≤ now) (day : now ≤ time + 86400000) :
    monthOf time ≤ monthOf now ∧ monthOf now ≤ monthOf time + 1 := by
  have spec := monthOf_spec time
  have later := monthOf_spec now
  constructor
  · by_contra before
    have apart := @monthStart_le (monthOf now + 1) (monthOf time) (by omega)
    omega
  · by_contra after
    have apart := @monthStart_le (monthOf time + 2) (monthOf now) (by omega)
    have next := @monthStart_le (monthOf time + 1) (monthOf time + 2) (by omega)
    omega

/-- Within a day after a call, the archive has a partition for the present
unless the present is premature. -/
theorem Ensured.archives_iff_timely {offset : SessionOffset} {state : Archiving}
    {months : List Int} (ensured : Ensured offset state months) {now : Timestamp}
    (recent : state.Recent now) :
    state.db.archives now = true <-> Not (state.Premature offset now) := by
  rcases recent with ⟨time, called, after, within⟩
  have order : time ≤ millis now := by
    change time * 1000 ≤ now at after
    unfold millis
    omega
  have day : millis now ≤ time + 86400000 := by
    change time * 1000 + 86400 * 1000000 ≥ now at within
    unfold millis
    omega
  have west := offset.west
  have east := offset.east
  have near := monthOf_within_day order day
  have timeSpec := monthOf_spec time
  have spec := monthOf_spec (millis now)
  have next := @monthStart_le (monthOf (millis now) + 1) (monthOf (millis now) + 2) (by omega)
  have before := @monthStart_le (monthOf (millis now) - 1) (monthOf (millis now)) (by omega)
  have long := @monthStart_le (monthOf (millis now)) (monthOf (millis now) + 1) (by omega)
  rw [ensured.archives_iff]
  unfold Premature
  by_cases early : millis now + offset.value * 1000 < monthStart (monthOf (millis now))
  · -- the session is still in the month before
    have shown : monthOf (millis now + offset.value * 1000) = monthOf (millis now) - 1 := by
      apply monthOf_eq
      · omega
      · rw [Int.sub_add_cancel]
        exact early
    rw [shown, ensured.called]
    constructor
    · rintro ⟨other, member, isMonth⟩ ⟨_, none⟩
      have absent := none other member
      omega
    · intro some
      by_contra absent
      refine some ⟨early, fun other member => ?_⟩
      constructor
      · exact fun isMonth => absent ⟨other, member, Or.inl isMonth.symm⟩
      · exact fun isMonth => absent ⟨other, member, Or.inr (by omega)⟩
  · refine ⟨fun _ premature => early premature.1, fun _ => ?_⟩
    rw [ensured.called]
    refine ⟨time, called, ?_⟩
    by_cases sameMonth : monthOf time = monthOf (millis now)
    · -- the session may already be in the next month
      by_cases ahead : monthStart (monthOf (millis now) + 1) ≤ millis now + offset.value * 1000
      · have shown : monthOf (millis now + offset.value * 1000) = monthOf (millis now) + 1 := by
          apply monthOf_eq ahead
          have sum : monthOf (millis now) + 1 + 1 = monthOf (millis now) + 2 := by omega
          rw [sum]
          omega
        omega
      · have shown : monthOf (millis now + offset.value * 1000) = monthOf (millis now) :=
          monthOf_eq (Int.not_lt.mp early) (Int.not_le.mp ahead)
        omega
    · -- the call was made in the month before, less than a day ago
      have previous : monthOf time + 1 = monthOf (millis now) := by omega
      rw [previous] at timeSpec
      have shown : monthOf (millis now + offset.value * 1000) = monthOf (millis now) := by
        apply monthOf_eq
        · omega
        · omega
      omega

/-! ## Runs -/

/-- No statement on the jobs touches the partitions. -/
theorem insertRows_partitions {now : Timestamp} {rows : List EnqueueRow} {db last : Database}
    {outcomes : List (Option JobRow)}
    (inserted : insertRows now rows db = .ok (last, outcomes)) :
    last.partitions = db.partitions := by
  induction rows generalizing db last outcomes with
  | nil =>
      cases inserted
      rfl
  | cons row rows inductionHypothesis =>
      rcases insertRows_cons inserted with ⟨next, outcome, tail, first, rest, rfl⟩
      have head := insertRow_ok first
      exact (inductionHypothesis rest).trans head.2.2.1

theorem exec_partitions {now : Timestamp} {db : Database} {statement : Statement} {reply : Reply}
    (committed : statement.exec now db = .ok reply) : reply.db.partitions = db.partitions := by
  cases updates : statement.mutation now db with
  | some mutation =>
      rw [Statement.exec_mutation updates] at committed
      exact (Mutation.run_ok committed).2.2.2.2.1
  | none =>
      cases statement with
      | insertJob row =>
          change PgJobQ.insertJob row now db = .ok reply at committed
          rw [insertJob_eq_batch] at committed
          rcases insertJobsBatch_ok committed with ⟨outcomes, inserted, _⟩
          exact insertRows_partitions inserted
      | insertJobsBatch rows =>
          rcases insertJobsBatch_ok committed with ⟨outcomes, inserted, _⟩
          exact insertRows_partitions inserted
      | setQueuePaused queue paused =>
          cases committed
          rfl
      | pruneTerminalJobs p locked =>
          rw [pruneTerminalJobs_ok committed]
          rfl
      | archiveTerminalJobs p locked =>
          rw [archiveTerminalJobs_ok committed]
          rfl
      | purgeQueue queue states limit locked =>
          cases committed
          rfl
      | _ => cases updates

theorem Ensured.step {offset : SessionOffset} {state : Archiving} (label : ArchivingLabel)
    (ensured : Exists fun months : List Int => Ensured offset state months) :
    Exists fun months : List Int => Ensured offset (state.step offset label) months := by
  rcases ensured with ⟨months, ensured⟩
  cases label with
  | ensurePartitions now => exact ⟨_, ensured.ensurePartitions now⟩
  | statement call =>
      refine ⟨months, ?_, ensured.creatable, ensured.distinct, ensured.called⟩
      rcases Database.step_cases state.db call with stays | ⟨reply, committed, moves⟩
      · exact (congrArg Database.partitions stays).trans ensured.partitions
      · exact (congrArg Database.partitions moves).trans
          ((exec_partitions committed).trans ensured.partitions)

theorem Ensured.provides_iff {offset : SessionOffset} {state : Archiving} {months : List Int}
    (ensured : Ensured offset state months) (label : ArchivingLabel) :
    state.Provides offset label <-> state.Timely offset label := by
  cases label with
  | ensurePartitions now =>
      refine ⟨fun _ => trivial, fun _ => ?_⟩
      have all := ensurePartitions_months offset ensured.creatable now
      rw [← ensured.partitions] at all
      exact congrArg Prod.snd all
  | statement call =>
      rcases call with ⟨now, statement⟩
      cases statement with
      | archiveTerminalJobs p locked =>
          exact forall_congr' (fun recent => ensured.archives_iff_timely recent)
      | _ => exact Iff.rfl

end Archiving

open Archiving in
/-- In a run from a database without partitions, the partitions stay apart, no
call fails, and every archive pass within a day after a call finds its
partition, exactly when none of these passes is premature. -/
theorem partitions_ready_iff (offset : SessionOffset) (config : QueueConfigTable)
    (labels : List ArchivingLabel) :
    (Always (step offset) Archiving.Apart (.start config) labels ∧
        EachStep (step offset) (Provides offset) (.start config) labels) <->
      EachStep (step offset) (Timely offset) (.start config) labels := by
  have initially : Exists fun months : List Int => Ensured offset (.start config) months :=
    ⟨[], Ensured.start offset config⟩
  have keeps : forall (state : Archiving) (label : ArchivingLabel),
      (Exists fun months : List Int => Ensured offset state months) ->
        Exists fun months : List Int => Ensured offset (state.step offset label) months :=
    fun state label ensured => Ensured.step label ensured
  have apart : Always (step offset) Archiving.Apart (.start config) labels := by
    refine always_of_eachStep ?_ (fun state label ensured _ => keeps state label ensured) initially
      (eachStep_of_forall (fun _ _ => trivial) _ labels)
    rintro state ⟨months, ensured⟩
    exact ensured.apart
  have same : EachStep (step offset) (Provides offset) (.start config) labels <->
      EachStep (step offset) (Timely offset) (.start config) labels := by
    refine eachStep_iff_of_invariant keeps ?_ initially labels
    rintro state label ⟨months, ensured⟩
    exact ensured.provides_iff label
  exact ⟨fun both => same.mp both.2, fun timely => ⟨apart, same.mpr timely⟩⟩

/-- No session at Greenwich or east of it is ever premature. -/
theorem Archiving.not_premature_of_east {offset : SessionOffset} (east : 0 ≤ offset.value)
    (state : Archiving) (now : Timestamp) : Not (state.Premature offset now) := by
  rintro ⟨early, _⟩
  have spec := monthOf_spec (millis now)
  omega

/-- Five hours west of Greenwich. -/
def westernSession : SessionOffset := ⟨-18000, by decide, by decide⟩

/-- Half an hour into March. -/
def firstCall : CallTime := ⟨951870600000, by decide, by decide⟩

/-- The first call is made half an hour into March, and a pass follows half an
hour later. -/
def lateFirstCall : List ArchivingLabel :=
  [.ensurePartitions firstCall,
    .statement ⟨ofMillis 951872400000, .archiveTerminalJobs ⟨1, some ⟨0, 0, 0⟩, some ⟨0, 0, 0⟩, utc⟩ []⟩]

theorem western_session_unprepared : Not (
    Always (Archiving.step westernSession) Archiving.Apart (.start .empty) lateFirstCall ∧
      EachStep (Archiving.step westernSession) (Archiving.Provides westernSession) (.start .empty)
        lateFirstCall) := by
  rintro ⟨_, _, provided, _⟩
  have found := provided ⟨firstCall.value, List.mem_cons_self, by decide, by decide⟩
  have ensured := (Archiving.Ensured.start westernSession .empty).ensurePartitions firstCall
  -- the session's clock shows February
  have shown := (ensured.archives_iff (ofMillis 951872400000)).mp found
  exact absurd shown (by decide +kernel)

end PgJobQ
