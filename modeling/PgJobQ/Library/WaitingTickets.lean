import Mathlib.Data.List.Sort
import Mathlib.Order.Lattice

/-!
# Tickets that are served by rank

A ticket has a priority and the time it has been waiting since.  Tickets are
served in the order of a rank, the highest rank first, and among equals in the
order of arrival and then of their numbers.  The rank is the priority, or the
priority raised by one for each full period the ticket has waited.

An earlier arrival never loses a place, under either rank.  Under the second
one a ticket that arrives late enough stays behind an older one for good,
whatever its priority is: waiting times grow alike, so the floors of two
quotients that differ by a whole number keep their distance.
-/

structure WaitingTicket where
  priority : Int
  since : Int
  number : Nat

namespace WaitingTicket

/-- Highest rank first, then the earliest arrival, then the smallest number. -/
def Before (rank : WaitingTicket -> Int) (first second : WaitingTicket) : Prop :=
  rank second < rank first ∨ (rank first = rank second ∧
    (first.since < second.since ∨
      (first.since = second.since ∧ first.number ≤ second.number)))

/-- The priority raised by the periods waited. -/
def aged (period now : Int) (ticket : WaitingTicket) : Int :=
  ticket.priority + (now - ticket.since) / period

namespace Before

variable {rank : WaitingTicket -> Int} {first second third : WaitingTicket}

theorem total (first second : WaitingTicket) :
    Before rank first second ∨ Before rank second first := by
  unfold Before
  omega

theorem refl (ticket : WaitingTicket) : Before rank ticket ticket :=
  (total ticket ticket).elim id id

theorem trans (before : Before rank first second) (after : Before rank second third) :
    Before rank first third := by
  unfold Before at *
  omega

/-- A ticket that moves up to an earlier arrival, with no lower rank, stays
ahead of those it was ahead of. -/
theorem advance {advanced : WaitingTicket} (before : Before rank first second)
    (higher : rank first ≤ rank advanced) (earlier : advanced.since ≤ first.since)
    (same : advanced.number = first.number) : Before rank advanced second := by
  unfold Before at *
  omega

/-- A higher rank decides. -/
theorem strict_of_rank (higher : rank second < rank first) :
    Before rank first second ∧ Not (Before rank second first) := by
  unfold Before
  omega

end Before

/-! ## Aging -/

/-- Who has waited longer is aged no less. -/
theorem aged_le_of_since {period : Int} (positive : 0 < period) {first second : WaitingTicket}
    (samePriority : first.priority = second.priority) (earlier : second.since ≤ first.since)
    (now : Int) : aged period now first ≤ aged period now second := by
  have quotients : (now - first.since) / period ≤ (now - second.since) / period :=
    Int.ediv_le_ediv positive (by omega)
  unfold aged
  omega

/-- A ticket that arrives one period later than its lead in priority is worth
stays behind, at every time. -/
theorem aged_lt_of_late {period : Int} (positive : 0 < period) {first second : WaitingTicket}
    (late : first.since + (max 0 (second.priority - first.priority) + 1) * period ≤ second.since)
    (now : Int) : aged period now second < aged period now first := by
  generalize lead : max 0 (second.priority - first.priority) + 1 = periods at late
  have shifted : (now - first.since - periods * period) / period =
      (now - first.since) / period - periods := by
    have multiple := Int.add_mul_ediv_right (now - first.since) (-periods) (ne_of_gt positive)
    rw [Int.neg_mul] at multiple
    exact multiple
  have quotients : (now - second.since) / period ≤
      (now - first.since - periods * period) / period :=
    Int.ediv_le_ediv positive (by omega)
  unfold aged
  omega

/-- Who is ahead of a ticket has not arrived much later.  The highest priority
there is bounds how much later. -/
theorem since_lt_of_before {period : Int} (positive : 0 < period) {first second : WaitingTicket}
    {now highest : Int} (ahead : Before (aged period now) second first)
    (firstAtMost : first.priority ≤ highest) (secondAtMost : second.priority ≤ highest) :
    second.since < first.since + (highest - first.priority + 1) * period := by
  by_contra notEarlier
  have lead : max 0 (second.priority - first.priority) + 1 ≤ highest - first.priority + 1 := by
    omega
  have late := Int.mul_le_mul_of_nonneg_right lead (Int.le_of_lt positive)
  have behind : aged period now second < aged period now first :=
    aged_lt_of_late positive (by omega) now
  exact (Before.strict_of_rank behind).2 ahead

end WaitingTicket

/-! ## Serving the first of a sorted queue -/

/-- Whoever is served while another one waits comes before it in the order. -/
theorem List.before_of_served {Item : Type*} {before : Item -> Item -> Prop}
    {queue earlier later : List Item} {served waiting : Item} {limit : Nat}
    (sorted : queue.Pairwise before) (reflexive : before served served)
    (taken : queue.take limit = earlier ++ served :: later) (member : waiting ∈ queue)
    (waits : waiting ∉ earlier) : before served waiting := by
  have whole : queue = earlier ++ served :: (later ++ queue.drop limit) := by
    rw [← List.cons_append, ← List.append_assoc, ← taken, List.take_append_drop]
  rw [whole] at sorted member
  have behind := (List.pairwise_cons.mp (List.pairwise_append.mp sorted).2.1).1
  rcases List.mem_append.mp member with early | late
  · exact absurd early waits
  · rcases List.mem_cons.mp late with same | behindIt
    · rw [same]
      exact reflexive
    · exact behind waiting behindIt
