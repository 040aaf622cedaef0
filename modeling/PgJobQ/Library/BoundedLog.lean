import Mathlib.Data.List.Basic

/-!
# Logs of bounded length

A log keeps the newest entries of a sequence.  Adding an entry drops the oldest
one first if the log has reached a limit, and each addition may name a limit of
its own.  An addition drops at most one entry, so a log that is longer than the
limit does not shrink.

The log stays a final part of the sequence under additions with any limits.
Its length stays within a bound as long as no addition with a larger limit
meets a log that is full.
-/

namespace BoundedLog

variable {Entry : Type*}

/-- Drop the oldest entry of a full log, then add one. -/
def push (limit : Nat) (log : List Entry) (entry : Entry) : List Entry :=
  (if limit ≤ log.length then log.tail else log) ++ [entry]

theorem length_push (limit : Nat) (log : List Entry) (entry : Entry) :
    (push limit log entry).length =
      if limit ≤ log.length then log.length - 1 + 1 else log.length + 1 := by
  unfold push
  rw [List.length_append, List.length_singleton]
  split
  · rw [List.length_tail]
  · rfl

/-- The log is a final part of the sequence, and has the last entry of it. -/
structure Keeps (whole log : List Entry) : Prop where
  suffix : log <:+ whole
  latest : log.getLast? = whole.getLast?

namespace Keeps

theorem nil : Keeps ([] : List Entry) [] := ⟨List.suffix_rfl, rfl⟩

theorem push {whole log : List Entry} (keeps : Keeps whole log) (limit : Nat) (entry : Entry) :
    Keeps (whole ++ [entry]) (BoundedLog.push limit log entry) where
  suffix := by
    have kept : (if limit ≤ log.length then log.tail else log) <:+ whole := by
      split
      · exact (List.tail_suffix log).trans keeps.suffix
      · exact keeps.suffix
    rcases kept with ⟨dropped, same⟩
    exact ⟨dropped, by rw [← same, BoundedLog.push, List.append_assoc]⟩
  latest := by
    rw [BoundedLog.push, List.getLast?_concat, List.getLast?_concat]

/-- A log of a sequence that is not empty has the last entry of it. -/
theorem mem_latest {whole log : List Entry} (keeps : Keeps whole log) {entry : Entry}
    (isLatest : whole.getLast? = some entry) : entry ∈ log :=
  List.mem_of_getLast? (keeps.latest.trans isLatest)

end Keeps

/-- A log within a bound leaves it only when it is full and the addition has a
larger limit. -/
theorem length_push_le_iff {bound limit : Nat} {log : List Entry} (positive : 0 < bound)
    (within : log.length ≤ bound) (entry : Entry) :
    (push limit log entry).length ≤ bound <-> Not (log.length = bound ∧ bound < limit) := by
  rw [length_push]
  split
  · omega
  · omega

end BoundedLog
