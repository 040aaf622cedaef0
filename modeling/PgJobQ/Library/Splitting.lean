import Mathlib.Data.List.Basic

/-!
# Splitting a text at a separator

`split` is `String.prototype.split` with a separator that is not empty: it
takes the separators from the left, none of them overlapping another, and
returns the pieces between them.  The last piece is what stands after the last
separator, so there is always one.

A text that arrives in parts is split as it comes: the last piece is kept and
put in front of what arrives next.  A separator that lies across a cut is then
found, and one that was found is not changed by what comes later.
-/

namespace Splitting

variable {α : Type*} [DecidableEq α]

/-- What stands before and after the first separator. -/
def findSep (sep : List α) : List α -> Option (List α × List α)
  | [] => none
  | c :: rest =>
      if sep.isPrefixOf (c :: rest) then some ([], (c :: rest).drop sep.length)
      else (findSep sep rest).map (fun parts => (c :: parts.1, parts.2))

/-- The pieces of a text, after the part `current` of a piece.  `skip` elements
belong to a separator that has been found. -/
def splitFrom (sep : List α) : Nat -> List α -> List α -> List (List α)
  | _, current, [] => [current]
  | skip + 1, current, _ :: rest => splitFrom sep skip current rest
  | 0, current, c :: rest =>
      if sep.isPrefixOf (c :: rest) then current :: splitFrom sep (sep.length - 1) [] rest
      else splitFrom sep 0 (current ++ [c]) rest

def split (sep text : List α) : List (List α) := splitFrom sep 0 [] text

/-- The pieces that a separator ends. -/
def complete (sep text : List α) : List (List α) := (split sep text).dropLast

/-- The last piece. -/
def lastPiece (sep text : List α) : List α := (split sep text).getLastD []

/-! ## One separator after another -/

theorem splitFrom_skip (sep : List α) (skip : Nat) (current text : List α) :
    splitFrom sep skip current text = splitFrom sep 0 current (text.drop skip) := by
  induction skip generalizing text with
  | zero => rfl
  | succ skip inductionHypothesis =>
      cases text with
      | nil => rfl
      | cons c rest => exact inductionHypothesis rest

theorem splitFrom_eq {sep : List α} (some_sep : sep ≠ []) (current text : List α) :
    splitFrom sep 0 current text =
      match findSep sep text with
      | none => [current ++ text]
      | some parts => (current ++ parts.1) :: split sep parts.2 := by
  induction text generalizing current with
  | nil => exact congrArg (fun piece => [piece]) (List.append_nil current).symm
  | cons c rest inductionHypothesis =>
      rw [splitFrom, findSep]
      by_cases found : sep.isPrefixOf (c :: rest) = true
      · rw [if_pos found, if_pos found, splitFrom_skip]
        cases sep with
        | nil => exact absurd rfl some_sep
        | cons first sep => exact congrArg (fun piece => piece :: _) (List.append_nil current).symm
      · rw [if_neg found, if_neg found, inductionHypothesis]
        cases findSep sep rest with
        | none => simp only [Option.map_none, List.append_assoc, List.singleton_append]
        | some parts => simp only [Option.map_some, List.append_assoc, List.singleton_append]

theorem split_eq {sep : List α} (some_sep : sep ≠ []) (text : List α) :
    split sep text =
      match findSep sep text with
      | none => [text]
      | some parts => parts.1 :: split sep parts.2 := by
  rw [split, splitFrom_eq some_sep]
  rfl

theorem split_ne_nil {sep : List α} (some_sep : sep ≠ []) (text : List α) : split sep text ≠ [] := by
  rw [split_eq some_sep]
  split <;> exact List.cons_ne_nil _ _

theorem findSep_eq_append {sep text : List α} {parts : List α × List α}
    (found : findSep sep text = some parts) : text = parts.1 ++ sep ++ parts.2 := by
  induction text generalizing parts with
  | nil => cases found
  | cons c rest inductionHypothesis =>
      rw [findSep] at found
      by_cases here : sep.isPrefixOf (c :: rest) = true
      · rw [if_pos here] at found
        cases found
        exact (List.prefix_iff_eq_append.mp (List.isPrefixOf_iff_prefix.mp here)).symm
      · rw [if_neg here] at found
        rcases Option.map_eq_some_iff.mp found with ⟨later, foundLater, same⟩
        cases same
        exact congrArg (c :: ·) (inductionHypothesis foundLater)

/-- A separator that was found stays the first one when more text arrives. -/
theorem findSep_append {sep before : List α} {parts : List α × List α}
    (found : findSep sep before = some parts) (after : List α) :
    findSep sep (before ++ after) = some (parts.1, parts.2 ++ after) := by
  induction before generalizing parts with
  | nil => cases found
  | cons c rest inductionHypothesis =>
      rw [findSep] at found
      rw [List.cons_append, findSep]
      by_cases here : sep.isPrefixOf (c :: rest) = true
      · have initial := List.isPrefixOf_iff_prefix.mp here
        have still : sep.isPrefixOf (c :: (rest ++ after)) = true :=
          List.isPrefixOf_iff_prefix.mpr (initial.trans (List.prefix_append (c :: rest) after))
        rw [if_pos here] at found
        cases found
        rw [if_pos still, ← List.cons_append, List.drop_append_of_le_length initial.length_le]
      · rw [if_neg here] at found
        rcases Option.map_eq_some_iff.mp found with ⟨later, foundLater, same⟩
        -- a separator found later has room in `rest`, so none begins here with the help of `after`
        have room := congrArg List.length (findSep_eq_append foundLater)
        simp only [List.length_append] at room
        have notYet : Not (sep.isPrefixOf (c :: (rest ++ after)) = true) := by
          intro initial
          refine here (List.isPrefixOf_iff_prefix.mpr (List.prefix_of_prefix_length_le
            (List.isPrefixOf_iff_prefix.mp initial) (List.prefix_append (c :: rest) after) ?_))
          rw [List.length_cons]
          omega
        cases same
        rw [if_neg notYet, inductionHypothesis foundLater]
        rfl

/-! ## A text that arrives in parts -/

theorem complete_eq {sep : List α} (some_sep : sep ≠ []) (text : List α) :
    complete sep text =
      match findSep sep text with
      | none => []
      | some parts => parts.1 :: complete sep parts.2 := by
  rw [complete, split_eq some_sep]
  split
  · rfl
  · exact List.dropLast_cons_of_ne_nil (split_ne_nil some_sep _)

theorem lastPiece_eq {sep : List α} (some_sep : sep ≠ []) (text : List α) :
    lastPiece sep text =
      match findSep sep text with
      | none => text
      | some parts => lastPiece sep parts.2 := by
  rw [lastPiece, split_eq some_sep]
  split
  · rfl
  · rename_i parts _
    rw [lastPiece]
    cases pieces : split sep parts.2 with
    | nil => exact absurd pieces (split_ne_nil some_sep _)
    | cons piece later => rfl

/-- What is complete after more text has arrived: what was complete before, and
what is complete once the last piece is put in front of the new text.  The
induction is on the length of the text before, which each separator shortens. -/
theorem complete_append {sep : List α} (some_sep : sep ≠ []) (before after : List α) :
    complete sep (before ++ after) =
      complete sep before ++ complete sep (lastPiece sep before ++ after) := by
  induction size : before.length using Nat.strongRecOn generalizing before with
  | _ n inductionHypothesis =>
      rw [complete_eq some_sep before, lastPiece_eq some_sep before]
      cases found : findSep sep before with
      | none => rfl
      | some parts =>
          have shorter : parts.2.length < n := by
            have lengths := congrArg List.length (findSep_eq_append found)
            have positive := List.length_pos_iff.mpr some_sep
            simp only [List.length_append] at lengths
            omega
          rw [complete_eq some_sep (before ++ after), findSep_append found]
          exact congrArg (parts.1 :: ·) (inductionHypothesis _ shorter parts.2 rfl)

/-- Nothing is complete in a last piece. -/
theorem complete_lastPiece {sep : List α} (some_sep : sep ≠ []) (text : List α) :
    complete sep (lastPiece sep text) = [] := by
  have same := complete_append some_sep text []
  rw [List.append_nil, List.append_nil] at same
  exact List.self_eq_append_right.mp same

/-! ## Pieces that were put together -/

/-- The separator that is put after a piece is the first one. -/
def IsPiece (sep piece : List α) : Prop := findSep sep (piece ++ sep) = some (piece, [])

instance (sep piece : List α) : Decidable (IsPiece sep piece) :=
  inferInstanceAs (Decidable (findSep sep (piece ++ sep) = some (piece, [])))

/-- Less than a piece and its separator has no separator in it. -/
theorem findSep_of_cut {sep piece cut : List α} (isPiece : IsPiece sep piece)
    (initial : cut <+: piece ++ sep) (short : cut.length < (piece ++ sep).length) :
    findSep sep cut = none := by
  rcases initial with ⟨missing, whole⟩
  cases found : findSep sep cut with
  | none => rfl
  | some parts =>
      have same := findSep_append found missing
      rw [whole, isPiece, Option.some.injEq, Prod.mk.injEq] at same
      have nothing := (List.append_eq_nil_iff.mp same.2.symm).2
      rw [nothing, List.append_nil] at whole
      rw [whole] at short
      exact absurd short (Nat.lt_irrefl _)

/-- Pieces that were each written with a separator are read back, and what
stands after them is not. -/
theorem complete_pieces {sep : List α} (some_sep : sep ≠ []) {pieces : List (List α)}
    (arePieces : forall piece, piece ∈ pieces -> IsPiece sep piece) {rest : List α}
    (noSep : findSep sep rest = none) :
    complete sep (pieces.flatMap (· ++ sep) ++ rest) = pieces := by
  induction pieces with
  | nil =>
      rw [List.flatMap_nil, List.nil_append, complete_eq some_sep, noSep]
  | cons piece pieces inductionHypothesis =>
      have first := findSep_append (arePieces piece List.mem_cons_self)
        (pieces.flatMap (· ++ sep) ++ rest)
      rw [List.nil_append, ← List.append_assoc] at first
      rw [List.flatMap_cons, complete_eq some_sep, first]
      exact congrArg (piece :: ·)
        (inductionHypothesis (fun other member => arePieces other (List.mem_cons_of_mem _ member)))

/-! ## Lines -/

/-- A separator does not begin where its first element is absent. -/
theorem findSep_append_of_notMem {first : α} {sep line : List α} (absent : first ∉ line)
    (text : List α) : findSep (first :: sep) (line ++ text) =
      (findSep (first :: sep) text).map (fun parts => (line ++ parts.1, parts.2)) := by
  induction line with
  | nil => exact Option.map_id'.symm
  | cons c line inductionHypothesis =>
      have apart := List.ne_of_not_mem_cons absent
      have notHere : Not ((first :: sep).isPrefixOf (c :: (line ++ text)) = true) := by
        intro initial
        exact apart (List.cons_prefix_cons.mp (List.isPrefixOf_iff_prefix.mp initial)).1
      rw [List.cons_append, findSep, if_neg notHere,
        inductionHypothesis (List.not_mem_of_not_mem_cons absent), Option.map_map]
      rfl

/-- A separator that stands where it is looked for. -/
theorem findSep_self (first : α) (sep text : List α) :
    findSep (first :: sep) (first :: sep ++ text) = some ([], text) := by
  have here : (first :: sep).isPrefixOf (first :: (sep ++ text)) = true :=
    List.isPrefixOf_iff_prefix.mpr (List.prefix_append (first :: sep) text)
  rw [List.cons_append, findSep, if_pos here, ← List.cons_append, List.drop_left]

/-- A line end and a line that is not empty are not two line ends. -/
theorem findSep_cons_of_ne {newline c : α} (apart : newline ≠ c) (text : List α) :
    findSep [newline, newline] (newline :: c :: text) =
      (findSep [newline, newline] (c :: text)).map (fun parts => (newline :: parts.1, parts.2)) := by
  have notHere : Not ([newline, newline].isPrefixOf (newline :: c :: text) = true) := by
    intro initial
    have second := (List.cons_prefix_cons.mp (List.isPrefixOf_iff_prefix.mp initial)).2
    exact apart (List.cons_prefix_cons.mp second).1
  rw [findSep, if_neg notHere]

/-- One line. -/
theorem isPiece_line {newline : α} {line : List α} (whole : newline ∉ line) :
    IsPiece [newline, newline] line := by
  have here := findSep_self newline [newline] []
  rw [List.append_nil] at here
  rw [IsPiece, findSep_append_of_notMem whole, here]
  simp only [Option.map_some, List.append_nil]

/-- Two lines, the second of them not empty. -/
theorem isPiece_two_lines {newline c : α} {first second : List α} (whole : newline ∉ first)
    (alsoWhole : newline ∉ c :: second) :
    IsPiece [newline, newline] (first ++ newline :: c :: second) := by
  have last := isPiece_line alsoWhole
  rw [IsPiece, List.cons_append] at last
  rw [IsPiece, List.append_assoc, findSep_append_of_notMem whole, List.cons_append, List.cons_append,
    findSep_cons_of_ne (List.ne_of_not_mem_cons alsoWhole), last]
  rfl

theorem split_line {newline : α} {line : List α} (whole : newline ∉ line) :
    split [newline] line = [line] := by
  have none_found := @findSep_append_of_notMem _ _ newline [] line whole []
  rw [List.append_nil] at none_found
  rw [split_eq (List.cons_ne_nil _ _), none_found]
  rfl

theorem split_two_lines {newline : α} {first second : List α} (whole : newline ∉ first)
    (alsoWhole : newline ∉ second) :
    split [newline] (first ++ newline :: second) = [first, second] := by
  have found := @findSep_append_of_notMem _ _ newline [] first whole (newline :: second)
  have here := findSep_self newline [] second
  rw [List.singleton_append] at here
  rw [here] at found
  rw [split_eq (List.cons_ne_nil _ _), found]
  simp only [Option.map_some, List.append_nil, split_line alsoWhole]

end Splitting
