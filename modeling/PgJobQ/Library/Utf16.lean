import Mathlib.Data.List.Basic

/-!
# UTF-16 text and its UTF-8 bytes

A JavaScript string is a list of 16-bit code units.  Two surrogates in the
right order make one character; any other surrogate stands alone and is no
character at all.  `decode` reads a text character by character, with `none`
for a surrogate that stands alone, and `encode` writes characters back.

The UTF-8 form of a text replaces what stands alone by U+FFFD.  A buffer that
is cut in the middle of a character reads back with one U+FFFD at its end.
-/

namespace Utf16

/-- A text as its code units. -/
abbrev Text := List UInt16

def isLead (unit : UInt16) : Bool := 0xD800 ≤ unit.toNat && unit.toNat ≤ 0xDBFF

def isTrail (unit : UInt16) : Bool := 0xDC00 ≤ unit.toNat && unit.toNat ≤ 0xDFFF

/-- The character of a unit that stands alone. -/
def single (unit : UInt16) : Option Char :=
  if isLead unit || isTrail unit then none else some (Char.ofNat unit.toNat)

/-- The character of a lead and a trail surrogate. -/
def paired (lead trail : UInt16) : Char :=
  Char.ofNat (0x10000 + (lead.toNat - 0xD800) * 0x400 + (trail.toNat - 0xDC00))

/-- The characters of a text; `none` is an unpaired surrogate. -/
def decode : Text -> List (Option Char)
  | [] => []
  | [unit] => [single unit]
  | lead :: trail :: rest =>
      if isLead lead && isTrail trail then some (paired lead trail) :: decode rest
      else single lead :: decode (trail :: rest)

/-- The units of a character. -/
def units (character : Char) : Text :=
  if character.toNat < 0x10000 then [UInt16.ofNat character.toNat]
  else [UInt16.ofNat (0xD800 + (character.toNat - 0x10000) / 0x400),
    UInt16.ofNat (0xDC00 + (character.toNat - 0x10000) % 0x400)]

def encode (characters : List Char) : Text := characters.flatMap units

/-! ## Reading back what was written -/

theorem decode_cons_of_not_lead {unit : UInt16} {rest : Text} (notLead : isLead unit = false) :
    decode (unit :: rest) = single unit :: decode rest := by
  cases rest with
  | nil => rfl
  | cons next rest => simp only [decode, notLead, Bool.false_and, Bool.false_eq_true, if_false]

theorem toNat_lt (character : Char) : character.toNat < 0x110000 ∧
    Not (0xD800 ≤ character.toNat ∧ character.toNat ≤ 0xDFFF) := by
  have valid := character.valid
  change character.toNat.isValidChar at valid
  rcases valid with low | high
  · omega
  · omega

theorem toNat_ofNat_unit {n : Nat} (small : n < 0x10000) : (UInt16.ofNat n).toNat = n := by
  rw [UInt16.toNat_ofNat']
  omega

theorem decode_units_append (character : Char) (rest : Text) :
    decode (units character ++ rest) = some character :: decode rest := by
  have bounds := toNat_lt character
  unfold units
  by_cases basic : character.toNat < 0x10000
  · have same := toNat_ofNat_unit basic
    have notLead : isLead (UInt16.ofNat character.toNat) = false := by
      simp only [isLead, same, Bool.and_eq_false_iff, decide_eq_false_iff_not]
      omega
    have notTrail : isTrail (UInt16.ofNat character.toNat) = false := by
      simp only [isTrail, same, Bool.and_eq_false_iff, decide_eq_false_iff_not]
      omega
    rw [if_pos basic, List.singleton_append, decode_cons_of_not_lead notLead]
    simp only [single, notLead, notTrail, Bool.or_self, Bool.false_eq_true, if_false, same,
      Char.ofNat_toNat]
  · have leadNat := @toNat_ofNat_unit (0xD800 + (character.toNat - 0x10000) / 0x400) (by omega)
    have trailNat := @toNat_ofNat_unit (0xDC00 + (character.toNat - 0x10000) % 0x400) (by omega)
    have lead : isLead (UInt16.ofNat (0xD800 + (character.toNat - 0x10000) / 0x400)) = true := by
      simp only [isLead, leadNat, Bool.and_eq_true, decide_eq_true_eq]
      omega
    have trail : isTrail (UInt16.ofNat (0xDC00 + (character.toNat - 0x10000) % 0x400)) = true := by
      simp only [isTrail, trailNat, Bool.and_eq_true, decide_eq_true_eq]
      omega
    rw [if_neg basic]
    simp only [List.cons_append, List.nil_append, decode, lead, trail, Bool.and_self, if_true,
      List.cons.injEq, Option.some.injEq, and_true]
    have joined : 0x10000 + (0xD800 + (character.toNat - 0x10000) / 0x400 - 0xD800) * 0x400 +
        (0xDC00 + (character.toNat - 0x10000) % 0x400 - 0xDC00) = character.toNat := by
      omega
    rw [paired, leadNat, trailNat, joined, Char.ofNat_toNat]

theorem decode_encode_append (characters : List Char) (rest : Text) :
    decode (encode characters ++ rest) = characters.map some ++ decode rest := by
  induction characters with
  | nil => rfl
  | cons character characters inductionHypothesis =>
      have split : encode (character :: characters) ++ rest =
          units character ++ (encode characters ++ rest) := by
        rw [encode, List.flatMap_cons, List.append_assoc]
        rfl
      rw [split, decode_units_append, inductionHypothesis]
      rfl

theorem decode_encode (characters : List Char) : decode (encode characters) = characters.map some := by
  have whole := decode_encode_append characters []
  rwa [List.append_nil, decode, List.append_nil] at whole

theorem encode_injective {first second : List Char} (same : encode first = encode second) :
    first = second := by
  have decoded := congrArg decode same
  rw [decode_encode, decode_encode] at decoded
  exact List.map_injective_iff.mpr (fun _ _ => Option.some.inj) decoded

theorem toNat_ofNat_char {n : Nat} (valid : n.isValidChar) : (Char.ofNat n).toNat = n := by
  rw [Char.ofNat, dif_pos valid]
  rfl

/-- A unit that is a character is written back as it was. -/
theorem units_of_single {unit : UInt16} {character : Char}
    (isSingle : single unit = some character) : units character = [unit] := by
  unfold single isLead isTrail at isSingle
  split at isSingle
  · cases isSingle
  · rename_i alone
    cases isSingle
    have small : unit.toNat < 0x10000 := unit.toNat_lt
    have valid : unit.toNat.isValidChar := by
      simp only [Bool.or_eq_true, Bool.and_eq_true, decide_eq_true_eq] at alone
      unfold Nat.isValidChar
      omega
    unfold units
    rw [toNat_ofNat_char valid, if_pos small, UInt16.ofNat_toNat]

/-- So are two surrogates that make a character. -/
theorem units_paired {lead trail : UInt16} (leads : isLead lead = true)
    (trails : isTrail trail = true) : units (paired lead trail) = [lead, trail] := by
  simp only [isLead, isTrail, Bool.and_eq_true, decide_eq_true_eq] at leads trails
  have valid : (0x10000 + (lead.toNat - 0xD800) * 0x400 + (trail.toNat - 0xDC00)).isValidChar := by
    unfold Nat.isValidChar
    omega
  have high : 0xD800 + (0x10000 + (lead.toNat - 0xD800) * 0x400 + (trail.toNat - 0xDC00) - 0x10000) /
      0x400 = lead.toNat := by
    omega
  have low : 0xDC00 + (0x10000 + (lead.toNat - 0xD800) * 0x400 + (trail.toNat - 0xDC00) - 0x10000) %
      0x400 = trail.toNat := by
    omega
  unfold units paired
  rw [toNat_ofNat_char valid, if_neg (by omega), high, low, UInt16.ofNat_toNat, UInt16.ofNat_toNat]

/-! ## UTF-8 -/

/-- What an UTF-8 encoder writes for a surrogate that stands alone, and a
decoder for bytes it cannot read. -/
def replacement : Char := Char.ofNat 0xFFFD

/-- The characters of the UTF-8 form of a text. -/
def toWellFormed (text : Text) : List Char :=
  (decode text).map (fun character => character.getD replacement)

theorem toWellFormed_encode (characters : List Char) : toWellFormed (encode characters) = characters := by
  rw [toWellFormed, decode_encode, List.map_map]
  exact List.map_id _

/-- Every surrogate of the text is one of a pair. -/
def WellFormed (text : Text) : Prop := none ∉ decode text

instance (text : Text) : Decidable (WellFormed text) :=
  inferInstanceAs (Decidable (none ∉ decode text))

theorem wellFormed_encode (characters : List Char) : WellFormed (encode characters) := by
  unfold WellFormed
  rw [decode_encode]
  simp

theorem encode_cons (character : Char) (characters : List Char) :
    encode (character :: characters) = units character ++ encode characters :=
  List.flatMap_cons

/-- A text whose surrogates are paired is read back from its UTF-8 form. -/
theorem encode_toWellFormed {text : Text} (wellFormed : WellFormed text) :
    encode (toWellFormed text) = text := by
  unfold WellFormed toWellFormed at *
  induction text using decode.induct with
  | case1 => rfl
  | case2 unit =>
      unfold decode at wellFormed ⊢
      rw [List.mem_singleton] at wellFormed
      rcases Option.ne_none_iff_exists'.mp (Ne.symm wellFormed) with ⟨character, alone⟩
      rw [alone, List.map_singleton, Option.getD_some, encode_cons, units_of_single alone]
      rfl
  | case3 lead trail rest pair inductionHypothesis =>
      have parts := Bool.and_eq_true_iff.mp pair
      unfold decode at wellFormed ⊢
      rw [if_pos pair] at wellFormed ⊢
      have later := inductionHypothesis (fun member => wellFormed (List.mem_cons_of_mem _ member))
      rw [List.map_cons, Option.getD_some, encode_cons, units_paired parts.1 parts.2, later]
      rfl
  | case4 lead trail rest apart inductionHypothesis =>
      unfold decode at wellFormed ⊢
      rw [if_neg apart] at wellFormed ⊢
      have later := inductionHypothesis (fun member => wellFormed (List.mem_cons_of_mem _ member))
      rcases Option.ne_none_iff_exists'.mp
        (fun alone => wellFormed (List.mem_cons.mpr (Or.inl alone.symm))) with ⟨character, alone⟩
      rw [List.map_cons, alone, Option.getD_some, encode_cons, units_of_single alone, later]
      rfl

/-- The length of the UTF-8 form. -/
def utf8Bytes (characters : List Char) : Nat :=
  characters.foldr (fun character bytes => character.utf8Size + bytes) 0

/-- The characters that lie within the first bytes. -/
def takeUtf8 (bytes : Nat) : List Char -> List Char
  | [] => []
  | character :: rest =>
      if character.utf8Size ≤ bytes then character :: takeUtf8 (bytes - character.utf8Size) rest
      else []

theorem takeUtf8_initial (bytes : Nat) (characters : List Char) :
    takeUtf8 bytes characters <+: characters := by
  induction characters generalizing bytes with
  | nil => exact List.prefix_rfl
  | cons character characters inductionHypothesis =>
      unfold takeUtf8
      split
      · exact List.cons_prefix_cons.mpr ⟨rfl, inductionHypothesis _⟩
      · exact List.nil_prefix

theorem utf8Bytes_append (first second : List Char) :
    utf8Bytes (first ++ second) = utf8Bytes first + utf8Bytes second := by
  induction first with
  | nil => exact (Nat.zero_add _).symm
  | cons character first inductionHypothesis =>
      change character.utf8Size + utf8Bytes (first ++ second) = _
      rw [inductionHypothesis, ← Nat.add_assoc]
      rfl

theorem utf8Bytes_takeUtf8_le (bytes : Nat) (characters : List Char) :
    utf8Bytes (takeUtf8 bytes characters) ≤ bytes := by
  induction characters generalizing bytes with
  | nil => exact Nat.zero_le bytes
  | cons character characters inductionHypothesis =>
      unfold takeUtf8
      split
      · rename_i fits
        have rest := inductionHypothesis (bytes - character.utf8Size)
        change character.utf8Size + utf8Bytes (takeUtf8 _ characters) ≤ bytes
        omega
      · exact Nat.zero_le bytes

theorem takeUtf8_append (bytes : Nat) (first second : List Char) :
    takeUtf8 bytes (first ++ second) =
      if utf8Bytes first ≤ bytes then first ++ takeUtf8 (bytes - utf8Bytes first) second
      else takeUtf8 bytes first := by
  induction first generalizing bytes with
  | nil => exact (if_pos (Nat.zero_le bytes)).symm
  | cons character first inductionHypothesis =>
      have size : utf8Bytes (character :: first) = character.utf8Size + utf8Bytes first := rfl
      rw [List.cons_append, takeUtf8, takeUtf8, inductionHypothesis, size]
      by_cases fits : character.utf8Size ≤ bytes
      · rw [if_pos fits, if_pos fits, Nat.sub_sub]
        by_cases whole : utf8Bytes first ≤ bytes - character.utf8Size
        · rw [if_pos whole, if_pos (by omega), List.cons_append]
        · rw [if_neg whole, if_neg (by omega)]
      · rw [if_neg fits, if_neg fits, if_neg (by omega)]

/-- The character after those that lie within the first bytes does not. -/
theorem takeUtf8_next {bytes : Nat} {characters : List Char} (long : bytes < utf8Bytes characters) :
    Exists fun next : Char => Exists fun rest : List Char =>
      characters = takeUtf8 bytes characters ++ next :: rest ∧
        bytes < utf8Bytes (takeUtf8 bytes characters) + next.utf8Size := by
  induction characters generalizing bytes with
  | nil => exact absurd long (Nat.not_lt_zero bytes)
  | cons character characters inductionHypothesis =>
      change bytes < character.utf8Size + utf8Bytes characters at long
      unfold takeUtf8
      split
      · rename_i fits
        rcases @inductionHypothesis (bytes - character.utf8Size) (by omega) with
          ⟨next, rest, split, tooLong⟩
        refine ⟨next, rest, congrArg (character :: ·) split, ?_⟩
        change bytes < character.utf8Size + utf8Bytes (takeUtf8 _ characters) + next.utf8Size
        omega
      · rename_i tooLong
        refine ⟨character, characters, rfl, ?_⟩
        change bytes < 0 + character.utf8Size
        omega

/-- The first bytes, read as text: a character that was cut is read as U+FFFD. -/
def cutUtf8 (bytes : Nat) (characters : List Char) : List Char :=
  let kept := takeUtf8 bytes characters
  if kept.length < characters.length && utf8Bytes kept < bytes then kept ++ [replacement] else kept

theorem mem_cutUtf8 {bytes : Nat} {characters : List Char} {character : Char}
    (member : character ∈ cutUtf8 bytes characters) :
    character ∈ takeUtf8 bytes characters ∨ character = replacement := by
  unfold cutUtf8 at member
  dsimp only at member
  split at member
  · rcases List.mem_append.mp member with kept | cut
    · exact Or.inl kept
    · exact Or.inr (List.mem_singleton.mp cut)
  · exact Or.inl member

end Utf16
