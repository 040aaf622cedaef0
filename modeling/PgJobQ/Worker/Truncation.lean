import PgJobQ.Library.Utf8
import PgJobQ.Worker.NormalizeError

/-!
# A truncated text fits and says where it was cut

`truncate` counts bytes and cuts bytes, and repairs the cut on characters: it
strips one U+FFFD from the end of what the cut bytes read as.  That U+FFFD
stands for a character the cut goes through, unless the text has a U+FFFD of
its own right before the cut.  Either way what is kept is a prefix of the text,
and it lacks at most one character of those that had room.
-/

namespace PgJobQ

open Utf16

/-- `Buffer.from(s, 'utf8')`. -/
def utf8Buffer (s : Text) : List UInt8 := Utf8.encode (toWellFormed s)

/-- Truncation byte by byte: the buffer is cut, read as text again and
repaired. -/
theorem truncate_eq_bytes (s : Text) (maxBytes : Nat) :
    truncate s maxBytes =
      if (utf8Buffer s).length ≤ maxBytes then s
      else encode (stripReplacement (Utf8.decode ((utf8Buffer s).take (room maxBytes))) ++ marker) := by
  unfold utf8Buffer truncate
  rw [Utf8.length_encode, Utf8.decode_take]
  split
  · rename_i empty
    rw [List.length_eq_zero_iff] at empty
    subst empty
    exact (if_pos (Nat.zero_le maxBytes)).symm
  · rfl

/-! ## What is kept -/

theorem stripReplacement_append (characters : List Char) :
    stripReplacement (characters ++ [replacement]) = characters := by
  unfold stripReplacement
  rw [if_pos List.getLast?_concat, List.dropLast_concat]

/-- What is kept of a text: a prefix within the room, after which the next
character has no room left, or is a U+FFFD that takes up the rest of it. -/
structure KeptWithin (bytes : Nat) (s p : List Char) : Prop where
  fits : utf8Bytes p ≤ bytes
  next : Exists fun next : Char => Exists fun rest : List Char => s = p ++ next :: rest ∧
    (bytes < utf8Bytes p + next.utf8Size ∨
      next = replacement ∧ bytes = utf8Bytes p + next.utf8Size)

/-- A cut keeps the characters within it, up to a U+FFFD that stands last
where the cut is between two characters. -/
theorem keptWithin_of_long {bytes : Nat} {s : List Char} (long : bytes < utf8Bytes s) :
    KeptWithin bytes s (stripReplacement (cutUtf8 bytes s)) := by
  rcases takeUtf8_next long with ⟨next, rest, split, tooLong⟩
  have fits := utf8Bytes_takeUtf8_le bytes s
  have shorter : (takeUtf8 bytes s).length < s.length := by
    have lengths := congrArg List.length split
    rw [List.length_append, List.length_cons] at lengths
    omega
  unfold cutUtf8
  dsimp only
  by_cases inside : utf8Bytes (takeUtf8 bytes s) < bytes
  · -- the U+FFFD that is stripped stands for `next`
    rw [if_pos (by simp [shorter, inside]), stripReplacement_append]
    exact ⟨fits, next, rest, split, Or.inl tooLong⟩
  · have filled : utf8Bytes (takeUtf8 bytes s) = bytes := by omega
    rw [if_neg (by simp [inside])]
    unfold stripReplacement
    by_cases last : (takeUtf8 bytes s).getLast? = some replacement
    · -- the U+FFFD that is stripped is one of the text
      rcases List.getLast?_eq_some_iff.mp last with ⟨before, ends⟩
      rw [if_pos last, ends, List.dropLast_concat]
      rw [ends, utf8Bytes_append] at filled
      have size : utf8Bytes [replacement] = replacement.utf8Size := Nat.add_zero _
      rw [size] at filled
      refine ⟨by omega, replacement, next :: rest, ?_, Or.inr ⟨rfl, filled.symm⟩⟩
      rw [ends, List.append_assoc] at split
      exact split
    · rw [if_neg last]
      exact ⟨fits, next, rest, split, Or.inl tooLong⟩

/-! ## The whole text -/

/-- A truncated text: within the bound, the text itself if that fits, and else
what is kept of it with the marker. -/
structure Truncated (maxBytes : Nat) (s truncated : List Char) : Prop where
  bounded : utf8Bytes truncated ≤ maxBytes
  whole : utf8Bytes s ≤ maxBytes -> truncated = s
  cut : maxBytes < utf8Bytes s -> Exists fun p : List Char =>
    truncated = p ++ marker ∧ KeptWithin (room maxBytes) s p

theorem truncate_encode (s : List Char) (maxBytes : Nat) :
    truncate (encode s) maxBytes =
      encode (if utf8Bytes s ≤ maxBytes then s
        else stripReplacement (cutUtf8 (room maxBytes) s) ++ marker) := by
  unfold truncate
  rw [toWellFormed_encode]
  split
  · rename_i empty
    cases s with
    | nil =>
        have fits : utf8Bytes [] ≤ maxBytes := Nat.zero_le maxBytes
        rw [if_pos fits]
    | cons character s =>
        exfalso
        rw [encode, List.flatMap_cons, List.length_append] at empty
        have some : (units character).length ≠ 0 := by
          unfold units
          split <;> exact Nat.succ_ne_zero _
        omega
  · split <;> rfl

/-- Every bound that the configuration accepts leaves room beside the marker. -/
theorem truncated_of_room (s : List Char) {maxBytes : Nat} (marked : utf8Bytes marker ≤ maxBytes) :
    Truncated maxBytes s (if utf8Bytes s ≤ maxBytes then s
      else stripReplacement (cutUtf8 (room maxBytes) s) ++ marker) := by
  by_cases fits : utf8Bytes s ≤ maxBytes
  · rw [if_pos fits]
    exact ⟨fits, fun _ => rfl, fun long => absurd long (Nat.not_lt.mpr fits)⟩
  · have kept : KeptWithin (room maxBytes) s (stripReplacement (cutUtf8 (room maxBytes) s)) := by
      apply keptWithin_of_long
      unfold room
      omega
    rw [if_neg fits]
    refine ⟨?_, fun short => absurd short fits, fun _ => ⟨_, rfl, kept⟩⟩
    have bytes := kept.fits
    rw [utf8Bytes_append]
    unfold room at bytes ⊢
    omega

/-- `truncate` on any text and any `maxErrorTextBytes`: the result is a text
within the bound, it is the text or a prefix of it with the marker, and
truncating it again changes nothing. -/
theorem truncate_safe (s : List Char) {maxBytes : Nat} (accepted : 64 ≤ maxBytes) :
    Exists fun truncated : List Char => truncate (encode s) maxBytes = encode truncated ∧
      Truncated maxBytes s truncated ∧
        truncate (truncate (encode s) maxBytes) maxBytes = truncate (encode s) maxBytes := by
  have marked : utf8Bytes marker ≤ maxBytes := Nat.le_trans (by decide) accepted
  have safe := truncated_of_room s marked
  have same := truncate_encode s maxBytes
  refine ⟨_, same, safe, ?_⟩
  rw [same, truncate_encode, if_pos safe.bounded]

/-- A text of characters of three bytes, cut within one. -/
theorem truncate_euros : Exists fun truncated : List Char =>
    truncate (encode (List.replicate 30 '€')) 64 = encode truncated ∧
      Truncated 64 (List.replicate 30 '€') truncated ∧
        truncate (truncate (encode (List.replicate 30 '€')) 64) 64 =
          truncate (encode (List.replicate 30 '€')) 64 :=
  truncate_safe (List.replicate 30 '€') (Nat.le_refl 64)

end PgJobQ
