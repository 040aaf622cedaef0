import PgJobQ.Library.Utf16

/-!
# UTF-8 bytes

`encode` writes the bytes of a text.  The decoder takes one byte at a time and
keeps what it has seen of a character that is not complete, so it reads a
stream in pieces of any size.  A byte that cannot continue the character that
was begun is read again as a first byte, after a U+FFFD for what is lost.

The bytes of a text, cut anywhere, read back as the characters that lie
within the cut, and as one U+FFFD for the character that the cut goes
through.
-/

namespace Utf8

open Utf16

def encode (characters : List Char) : List UInt8 := characters.flatMap String.utf8EncodeChar

/-- A character of which the first bytes have been read: their bits, how many
bytes are missing, and the range of the next one. -/
structure Pending where
  codePoint : Nat
  needed : Nat
  lower : Nat
  upper : Nat

/-- What a first byte begins. -/
def lead (byte : Nat) : Option Pending :=
  if 0xC2 ≤ byte ∧ byte ≤ 0xDF then some ⟨byte - 0xC0, 1, 0x80, 0xBF⟩
  else if 0xE0 ≤ byte ∧ byte ≤ 0xEF then
    some ⟨byte - 0xE0, 2, if byte = 0xE0 then 0xA0 else 0x80, if byte = 0xED then 0x9F else 0xBF⟩
  else if 0xF0 ≤ byte ∧ byte ≤ 0xF4 then
    some ⟨byte - 0xF0, 3, if byte = 0xF0 then 0x90 else 0x80, if byte = 0xF4 then 0x8F else 0xBF⟩
  else none

/-- A byte where a character may begin. -/
def begin (byte : Nat) : List Char × Option Pending :=
  if byte ≤ 0x7F then ([Char.ofNat byte], none)
  else
    match lead byte with
    | some pending => ([], some pending)
    | none => ([replacement], none)

/-- A byte where a character may have been begun. -/
def accept (state : Option Pending) (byte : Nat) : List Char × Option Pending :=
  match state with
  | none => begin byte
  | some pending =>
      if pending.lower ≤ byte ∧ byte ≤ pending.upper then
        let codePoint := pending.codePoint * 64 + (byte - 0x80)
        if pending.needed = 1 then ([Char.ofNat codePoint], none)
        else ([], some ⟨codePoint, pending.needed - 1, 0x80, 0xBF⟩)
      else (replacement :: (begin byte).1, (begin byte).2)

/-- The characters of a piece of a stream, and what is left over for the next
one. -/
def read : Option Pending -> List UInt8 -> List Char × Option Pending
  | state, [] => ([], state)
  | state, byte :: rest =>
      let next := accept state byte.toNat
      let later := read next.2 rest
      (next.1 ++ later.1, later.2)

/-- The end of a stream. -/
def flush : Option Pending -> List Char
  | none => []
  | some _ => [replacement]

/-- The text of all the bytes. -/
def decode (bytes : List UInt8) : List Char := (read none bytes).1 ++ flush (read none bytes).2

theorem read_append (state : Option Pending) (first second : List UInt8) :
    read state (first ++ second) =
      ((read state first).1 ++ (read (read state first).2 second).1,
        (read (read state first).2 second).2) := by
  induction first generalizing state with
  | nil => rfl
  | cons byte first inductionHypothesis =>
      simp only [List.cons_append, read, inductionHypothesis, List.append_assoc]

/-! ## One character -/

/-- The bytes that complete a character. -/
inductive Completes (character : Char) : Pending -> List UInt8 -> Prop where
  | last {pending byte} (within : pending.lower ≤ byte.toNat ∧ byte.toNat ≤ pending.upper)
      (needed : pending.needed = 1)
      (value : pending.codePoint * 64 + (byte.toNat - 0x80) = character.toNat) :
      Completes character pending [byte]
  | more {pending byte rest} (within : pending.lower ≤ byte.toNat ∧ byte.toNat ≤ pending.upper)
      (needed : pending.needed ≠ 1)
      (completes : Completes character ⟨pending.codePoint * 64 + (byte.toNat - 0x80),
        pending.needed - 1, 0x80, 0xBF⟩ rest) : Completes character pending (byte :: rest)

namespace Completes

variable {character : Char} {pending : Pending} {bytes : List UInt8}

theorem read_all (completes : Completes character pending bytes) :
    read (some pending) bytes = ([character], none) := by
  induction completes with
  | last within needed value =>
      simp only [read, accept, if_pos within, if_pos needed, value, Char.ofNat_toNat,
        List.append_nil]
  | more within needed completes inductionHypothesis =>
      simp only [read, accept, if_pos within, if_neg needed, inductionHypothesis, List.nil_append]

theorem read_some (completes : Completes character pending bytes) {count : Nat}
    (short : count < bytes.length) :
    Exists fun left : Pending => read (some pending) (bytes.take count) = ([], some left) := by
  induction completes generalizing count with
  | last within needed value =>
      have nothing : count = 0 := Nat.lt_one_iff.mp short
      subst nothing
      exact ⟨_, rfl⟩
  | more within needed completes inductionHypothesis =>
      cases count with
      | zero => exact ⟨_, rfl⟩
      | succ count =>
          rcases inductionHypothesis (Nat.lt_of_succ_lt_succ short) with ⟨left, rest⟩
          refine ⟨left, ?_⟩
          simp only [List.take_succ_cons, read, accept, if_pos within, if_neg needed, rest,
            List.nil_append]

end Completes

theorem toNat_ofNat_byte {n : Nat} (small : n < 256) : (UInt8.ofNat n).toNat = n := by
  rw [UInt8.toNat_ofNat']
  omega

/-- Two bytes, with five and six bits. -/
theorem completes_two {character : Char} (low : 0x7F < character.toNat)
    (high : character.toNat ≤ 0x7FF) : Exists fun pending : Pending =>
      begin (UInt8.ofNat (character.toNat / 64 % 0x20 + 0xC0)).toNat = ([], some pending) ∧
        Completes character pending [UInt8.ofNat (character.toNat % 0x40 + 0x80)] := by
  generalize number : character.toNat = n at low high ⊢
  have first := @toNat_ofNat_byte (n / 64 % 0x20 + 0xC0) (by omega)
  have last := @toNat_ofNat_byte (n % 0x40 + 0x80) (by omega)
  refine ⟨⟨n / 64, 1, 0x80, 0xBF⟩, ?_, .last ?_ rfl ?_⟩
  · rw [first, begin, if_neg (by omega), lead, if_pos (by omega)]
    simp only [Prod.mk.injEq, Option.some.injEq, Pending.mk.injEq, and_true, true_and]
    omega
  · rw [last]
    dsimp only
    omega
  · rw [last, number]
    dsimp only
    omega

/-- Three bytes, with four bits and twice six.  A value below 0x800 and a
surrogate are kept out by the range of the second byte. -/
theorem completes_three {character : Char} (low : 0x7FF < character.toNat)
    (high : character.toNat ≤ 0xFFFF) : Exists fun pending : Pending =>
      begin (UInt8.ofNat (character.toNat / 4096 % 0x10 + 0xE0)).toNat = ([], some pending) ∧
        Completes character pending [UInt8.ofNat (character.toNat / 64 % 0x40 + 0x80),
          UInt8.ofNat (character.toNat % 0x40 + 0x80)] := by
  have valid := (Utf16.toNat_lt character).2
  generalize number : character.toNat = n at low high valid ⊢
  have first := @toNat_ofNat_byte (n / 4096 % 0x10 + 0xE0) (by omega)
  have middle := @toNat_ofNat_byte (n / 64 % 0x40 + 0x80) (by omega)
  have last := @toNat_ofNat_byte (n % 0x40 + 0x80) (by omega)
  refine ⟨⟨n / 4096, 2, if n / 4096 = 0 then 0xA0 else 0x80,
    if n / 4096 = 0xD then 0x9F else 0xBF⟩, ?_, .more ?_ (Nat.succ_ne_self 1) (.last ?_ rfl ?_)⟩
  · rw [first, begin, if_neg (by omega), lead, if_neg (by omega), if_pos (by omega)]
    simp only [Prod.mk.injEq, Option.some.injEq, Pending.mk.injEq, true_and]
    exact ⟨by omega, if_congr (by omega) rfl rfl, if_congr (by omega) rfl rfl⟩
  · rw [middle]
    dsimp only
    split <;> split <;> omega
  · rw [last]
    dsimp only
    omega
  · rw [last, middle, number]
    dsimp only
    omega

/-- Four bytes, with three bits and three times six.  The range of the second
byte keeps out a value below 0x10000 and one above 0x10FFFF. -/
theorem completes_four {character : Char} (low : 0xFFFF < character.toNat) :
    Exists fun pending : Pending =>
      begin (UInt8.ofNat (character.toNat / 262144 % 0x08 + 0xF0)).toNat = ([], some pending) ∧
        Completes character pending [UInt8.ofNat (character.toNat / 4096 % 0x40 + 0x80),
          UInt8.ofNat (character.toNat / 64 % 0x40 + 0x80),
          UInt8.ofNat (character.toNat % 0x40 + 0x80)] := by
  have high := (Utf16.toNat_lt character).1
  generalize number : character.toNat = n at low high ⊢
  have first := @toNat_ofNat_byte (n / 262144 % 0x08 + 0xF0) (by omega)
  have second := @toNat_ofNat_byte (n / 4096 % 0x40 + 0x80) (by omega)
  have third := @toNat_ofNat_byte (n / 64 % 0x40 + 0x80) (by omega)
  have last := @toNat_ofNat_byte (n % 0x40 + 0x80) (by omega)
  refine ⟨⟨n / 262144, 3, if n / 262144 = 0 then 0x90 else 0x80,
    if n / 262144 = 4 then 0x8F else 0xBF⟩, ?_,
    .more ?_ (Nat.succ_succ_ne_one 1) (.more ?_ (Nat.succ_ne_self 1) (.last ?_ rfl ?_))⟩
  · rw [first, begin, if_neg (by omega), lead, if_neg (by omega), if_neg (by omega),
      if_pos (by omega)]
    simp only [Prod.mk.injEq, Option.some.injEq, Pending.mk.injEq, true_and]
    exact ⟨by omega, if_congr (by omega) rfl rfl, if_congr (by omega) rfl rfl⟩
  · rw [second]
    dsimp only
    split <;> split <;> omega
  · rw [third]
    dsimp only
    omega
  · rw [last]
    dsimp only
    omega
  · rw [last, third, second, number]
    dsimp only
    omega

/-- A character is one byte, or a first byte and the bytes that complete it. -/
theorem utf8EncodeChar_cases (character : Char) :
    (Exists fun byte : UInt8 => String.utf8EncodeChar character = [byte] ∧
      begin byte.toNat = ([character], none)) ∨
      Exists fun first : UInt8 => Exists fun rest : List UInt8 => Exists fun pending : Pending =>
        String.utf8EncodeChar character = first :: rest ∧ begin first.toNat = ([], some pending) ∧
          Completes character pending rest := by
  unfold String.utf8EncodeChar
  dsimp only
  rw [show character.val.toNat = character.toNat from rfl]
  by_cases one : character.toNat ≤ 0x7F
  · refine Or.inl ⟨_, if_pos one, ?_⟩
    rw [toNat_ofNat_byte (by omega), begin, if_pos one, Char.ofNat_toNat]
  · rw [if_neg one]
    right
    by_cases two : character.toNat ≤ 0x7FF
    · rcases completes_two (Nat.not_le.mp one) two with ⟨pending, begins, completes⟩
      exact ⟨_, _, pending, if_pos two, begins, completes⟩
    · rw [if_neg two]
      by_cases three : character.toNat ≤ 0xFFFF
      · rcases completes_three (Nat.not_le.mp two) three with ⟨pending, begins, completes⟩
        exact ⟨_, _, pending, if_pos three, begins, completes⟩
      · rw [if_neg three]
        rcases completes_four (Nat.not_le.mp three) with ⟨pending, begins, completes⟩
        exact ⟨_, _, pending, rfl, begins, completes⟩

theorem read_character (character : Char) :
    read none (String.utf8EncodeChar character) = ([character], none) := by
  rcases utf8EncodeChar_cases character with ⟨byte, bytes, begins⟩ |
    ⟨first, rest, pending, bytes, begins, completes⟩
  · rw [bytes]
    simp only [read, accept, begins, List.append_nil]
  · rw [bytes]
    simp only [read, accept, begins, completes.read_all, List.nil_append]

/-- A character that is cut leaves its first bytes pending. -/
theorem read_cut (character : Char) {count : Nat} (positive : 0 < count)
    (short : count < character.utf8Size) : Exists fun pending : Pending =>
      read none ((String.utf8EncodeChar character).take count) = ([], some pending) := by
  rw [← String.length_utf8EncodeChar] at short
  rcases utf8EncodeChar_cases character with ⟨byte, bytes, begins⟩ |
    ⟨first, rest, pending, bytes, begins, completes⟩
  · rw [bytes, List.length_singleton] at short
    omega
  · rw [bytes] at short ⊢
    cases count with
    | zero => omega
    | succ count =>
        rcases completes.read_some (Nat.lt_of_succ_lt_succ short) with ⟨left, reads⟩
        refine ⟨left, ?_⟩
        simp only [List.take_succ_cons, read, accept, begins, reads, List.nil_append]

/-! ## A text -/

theorem length_encode (characters : List Char) :
    (encode characters).length = utf8Bytes characters := by
  induction characters with
  | nil => rfl
  | cons character characters inductionHypothesis =>
      unfold encode at inductionHypothesis ⊢
      rw [List.flatMap_cons, List.length_append, String.length_utf8EncodeChar, inductionHypothesis]
      rfl

/-- The first bytes of a text give the characters that lie within them, and
leave something pending when they end inside of a character. -/
theorem read_take (count : Nat) (characters : List Char) :
    (read none ((encode characters).take count)).1 = takeUtf8 count characters ∧
      ((read none ((encode characters).take count)).2.isSome = true <->
        (takeUtf8 count characters).length < characters.length ∧
          utf8Bytes (takeUtf8 count characters) < count) := by
  induction characters generalizing count with
  | nil =>
      simp [encode, read, takeUtf8]
  | cons character characters inductionHypothesis =>
      have split : encode (character :: characters) =
        String.utf8EncodeChar character ++ encode characters := List.flatMap_cons
      have size := String.length_utf8EncodeChar character
      rw [split, List.take_append, size, takeUtf8]
      by_cases fits : character.utf8Size ≤ count
      · rw [List.take_of_length_le (by omega), read_append, read_character, if_pos fits]
        have rest := inductionHypothesis (count - character.utf8Size)
        refine ⟨congrArg (character :: ·) rest.1, ?_⟩
        rw [rest.2]
        simp only [List.length_cons, utf8Bytes, List.foldr_cons]
        omega
      · have nothing : count - character.utf8Size = 0 := by omega
        rw [nothing, List.take_zero, List.append_nil, if_neg fits]
        rcases Nat.eq_zero_or_pos count with rfl | positive
        · simp [read, utf8Bytes]
        · rcases read_cut character positive (Nat.not_le.mp fits) with ⟨pending, cut⟩
          rw [cut]
          simp [utf8Bytes, positive]

/-- The first bytes of a text, read as a text of their own. -/
theorem decode_take (count : Nat) (characters : List Char) :
    decode ((encode characters).take count) = cutUtf8 count characters := by
  have reads := read_take count characters
  unfold decode cutUtf8
  dsimp only
  rw [reads.1]
  generalize (read none ((encode characters).take count)).2 = left at reads
  cases left with
  | none =>
      have whole := reads.2.not.mp Bool.false_ne_true
      rw [if_neg (by simpa using whole)]
      exact List.append_nil _
  | some pending =>
      rw [if_pos (by simpa using reads.2.mp rfl)]
      rfl

end Utf8
