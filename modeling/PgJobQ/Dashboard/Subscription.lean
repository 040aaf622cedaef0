import PgJobQ.Library.Splitting
import PgJobQ.Library.Utf8
import PgJobQ.Server.EventStream

/-!
# The dashboard reads the event stream

`subscribeToEvents` reads a response as its bytes arrive.  A cut may fall
inside of a character, a line or the end of a frame: the decoder keeps the
first bytes of a character, and the buffer what stands after the last frame
that is complete.
-/

namespace PgJobQ

open Runs Splitting Utf16

variable {ν : Type}

/-! ## Reading -/

def byteOrderMark : Char := Char.ofNat 0xFEFF

/-- A `TextDecoder` for UTF-8: the bytes of a character that is not complete,
and whether a character has been read. -/
structure TextDecoder where
  pending : Option Utf8.Pending
  begun : Bool

namespace TextDecoder

def new : TextDecoder := ⟨none, false⟩

/-- `decoder.decode(value, { stream: true })`.  A byte order mark is left out
where it comes first. -/
def decode (decoder : TextDecoder) (value : List UInt8) : List Char × TextDecoder :=
  let read := Utf8.read decoder.pending value
  match decoder.begun, read.1 with
  | true, text => (text, ⟨read.2, true⟩)
  | false, [] => ([], ⟨read.2, false⟩)
  | false, first :: rest =>
      (if first = byteOrderMark then rest else first :: rest, ⟨read.2, true⟩)

end TextDecoder

/-- `parsed.type === 'snapshot'`. -/
def Json.isSnapshot : Json ν -> Bool
  | .object fields =>
      match fields.lookup (word "type") with
      | some (.string text) => text == word "snapshot"
      | _ => false
  | _ => false

/-- What `onSnapshot` is called with for a frame.  A frame without a data line,
with data that does not parse or with an event of another type is passed over. -/
def onFrame (codec : JsonCodec ν) (frame : List Char) : Option (Json ν) :=
  match (split "\n".toList frame).find? (fun line => "data: ".toList.isPrefixOf line) with
  | none => none
  | some dataLine =>
      match codec.parse (dataLine.drop 6) with
      | none => none
      | some parsed => if parsed.isSnapshot then some parsed else none

def frameEnd : List Char := "\n\n".toList

structure Reader where
  decoder : TextDecoder
  buffer : List Char

namespace Reader

def new : Reader := ⟨TextDecoder.new, []⟩

/-- What `onSnapshot` is called with when a value has been read: `split`, `pop`
and the loop over the frames. -/
def read (codec : JsonCodec ν) (reader : Reader) (value : List UInt8) : List (Json ν) × Reader :=
  let decoded := reader.decoder.decode value
  let buffer := reader.buffer ++ decoded.1
  ((complete frameEnd buffer).filterMap (onFrame codec), ⟨decoded.2, lastPiece frameEnd buffer⟩)

end Reader

/-- The calls of `onSnapshot` on one connection. -/
def subscribeToEvents (codec : JsonCodec ν) : Reader -> List (List UInt8) -> List (Json ν)
  | _, [] => []
  | reader, value :: values =>
      let read := reader.read codec value
      read.1 ++ subscribeToEvents codec read.2 values

/-! ## Values of any size -/

namespace TextDecoder

theorem decode_append (decoder : TextDecoder) (first second : List UInt8) :
    decoder.decode (first ++ second) =
      ((decoder.decode first).1 ++ ((decoder.decode first).2.decode second).1,
        ((decoder.decode first).2.decode second).2) := by
  rcases decoder with ⟨pending, begun⟩
  unfold decode
  dsimp only
  rw [Utf8.read_append]
  cases begun with
  | true => rfl
  | false =>
      cases (Utf8.read pending first).1 with
      | nil => rfl
      | cons character rest =>
          simp only [List.cons_append, Prod.mk.injEq, and_true]
          split <;> rfl

theorem decode_nil (decoder : TextDecoder) : (decoder.decode []).1 = [] := by
  rcases decoder with ⟨pending, begun⟩
  cases begun <;> rfl

/-- No byte order mark comes first. -/
theorem decode_new {value : List UInt8}
    (unmarked : (Utf8.read none value).1.head? ≠ some byteOrderMark) :
    (new.decode value).1 = (Utf8.read none value).1 := by
  unfold decode new
  dsimp only
  cases text : (Utf8.read none value).1 with
  | nil => rfl
  | cons first rest =>
      rw [text] at unmarked
      exact if_neg (fun same => unmarked (congrArg some same))

end TextDecoder

theorem frameEnd_ne_nil : frameEnd ≠ [] := List.cons_ne_nil _ _

/-- However the values are cut, the calls are those for the frames that are
complete in the whole text. -/
theorem subscribeToEvents_eq (codec : JsonCodec ν) {reader : Reader} (values : List (List UInt8))
    (carried : complete frameEnd reader.buffer = []) :
    subscribeToEvents codec reader values =
      (complete frameEnd (reader.buffer ++ (reader.decoder.decode values.flatten).1)).filterMap
        (onFrame codec) := by
  induction values generalizing reader with
  | nil =>
      rw [List.flatten_nil, TextDecoder.decode_nil, List.append_nil, carried]
      rfl
  | cons value values inductionHypothesis =>
      have later := @inductionHypothesis (reader.read codec value).2
        (complete_lastPiece frameEnd_ne_nil _)
      rw [subscribeToEvents, later, List.flatten_cons, TextDecoder.decode_append, ← List.append_assoc,
        complete_append frameEnd_ne_nil (reader.buffer ++ (reader.decoder.decode value).1),
        List.filterMap_append]
      rfl

/-! ## One frame -/

namespace Write

/-- A frame without its end. -/
def body (codec : JsonCodec ν) : Write ν -> List Char
  | retry => "retry: 3000".toList
  | event published => "event: ".toList ++ published.type.toList ++ "\ndata: ".toList ++
      codec.stringify published.toJson
  | keepalive => ": keepalive".toList

/-- The snapshot that a frame carries. -/
def snapshot : Write ν -> Option (Json ν)
  | event published =>
      match published with
      | .snapshot _ _ => some published.toJson
      | .health _ _ => none
  | _ => none

theorem text_eq (codec : JsonCodec ν) (write : Write ν) :
    write.text codec = write.body codec ++ frameEnd := by
  cases write <;> rfl

/-- What is written can be told from what comes after it. -/
def Legible (codec : JsonCodec ν) : Write ν -> Prop
  | event published => codec.Undoes published.toJson
  | _ => True

variable {codec : JsonCodec ν} {write : Write ν}

/-- An event is two lines. -/
theorem body_event (published : ServerEvent ν) :
    body codec (.event published) = ("event: ".toList ++ published.type.toList) ++
      '\n' :: ("data: ".toList ++ codec.stringify published.toJson) := by
  have newline : "\ndata: ".toList = '\n' :: "data: ".toList := by decide
  have whole : body codec (.event published) = "event: ".toList ++ published.type.toList ++
      "\ndata: ".toList ++ codec.stringify published.toJson := rfl
  rw [whole, newline, List.append_assoc, List.cons_append]

theorem notMem_first (published : ServerEvent ν) :
    '\n' ∉ "event: ".toList ++ published.type.toList := by
  have snapshot : '\n' ∉ "event: ".toList ++ "snapshot".toList := by decide
  have health : '\n' ∉ "event: ".toList ++ "health".toList := by decide
  cases published with
  | snapshot queues atTime => exact snapshot
  | health ready atTime => exact health

theorem notMem_second {published : ServerEvent ν} (undone : codec.Undoes published.toJson) :
    '\n' ∉ "data: ".toList ++ codec.stringify published.toJson := by
  have field : '\n' ∉ "data: ".toList := by decide
  exact fun member => (List.mem_append.mp member).elim field undone.oneLine

theorem isPiece_body (legible : write.Legible codec) : IsPiece frameEnd (write.body codec) := by
  have ends : frameEnd = ['\n', '\n'] := by decide
  have letter : "data: ".toList = 'd' :: "ata: ".toList := by decide
  rw [ends]
  cases write with
  | retry =>
      have line : '\n' ∉ "retry: 3000".toList := by decide
      exact isPiece_line line
  | keepalive =>
      have line : '\n' ∉ ": keepalive".toList := by decide
      exact isPiece_line line
  | event published =>
      have second := notMem_second legible
      rw [letter, List.cons_append] at second
      rw [body_event, letter, List.cons_append]
      exact isPiece_two_lines (notMem_first published) second

/-- Only a snapshot passes for one. -/
theorem snapshot_event (published : ServerEvent ν) :
    (if published.toJson.isSnapshot then some published.toJson else none) =
      snapshot (.event published) := by
  cases published with
  | snapshot queues atTime => rfl
  | health ready atTime => rfl

/-- A line that is no data line is passed over. -/
theorem onFrame_of_line {line : List Char} (whole : '\n' ∉ line)
    (noData : "data: ".toList.isPrefixOf line = false) : onFrame codec line = none := by
  have newline : "\n".toList = ['\n'] := by decide
  unfold onFrame
  rw [newline, split_line whole, List.find?_cons_of_neg (Bool.eq_false_iff.mp noData), List.find?_nil]

theorem onFrame_body (legible : write.Legible codec) :
    onFrame codec (write.body codec) = write.snapshot := by
  cases write with
  | retry =>
      have line : '\n' ∉ "retry: 3000".toList := by decide
      have noData : "data: ".toList.isPrefixOf "retry: 3000".toList = false := by decide
      exact onFrame_of_line line noData
  | keepalive =>
      have line : '\n' ∉ ": keepalive".toList := by decide
      have noData : "data: ".toList.isPrefixOf ": keepalive".toList = false := by decide
      exact onFrame_of_line line noData
  | event published =>
      have newline : "\n".toList = ['\n'] := by decide
      have noData : "data: ".toList.isPrefixOf ("event: ".toList ++ published.type.toList) = false := rfl
      have data : "data: ".toList.isPrefixOf ("data: ".toList ++ codec.stringify published.toJson) :=
        List.isPrefixOf_iff_prefix.mpr (List.prefix_append _ _)
      have rest : ("data: ".toList ++ codec.stringify published.toJson).drop 6 =
        codec.stringify published.toJson := List.drop_left' (by decide)
      unfold onFrame
      rw [body_event, newline, split_two_lines (notMem_first published) (notMem_second legible),
        List.find?_cons_of_neg (Bool.eq_false_iff.mp noData),
        List.find?_cons_of_pos data]
      dsimp only
      rw [rest, legible.parses]
      exact snapshot_event published

end Write

/-! ## What has arrived -/

/-- The frames of which all bytes have arrived. -/
def arrived (codec : JsonCodec ν) : Nat -> List (Write ν) -> List (Write ν)
  | _, [] => []
  | bytes, write :: writes =>
      if utf8Bytes (write.text codec) ≤ bytes then
        write :: arrived codec (bytes - utf8Bytes (write.text codec)) writes
      else []

theorem arrived_initial (codec : JsonCodec ν) (bytes : Nat) (writes : List (Write ν)) :
    arrived codec bytes writes <+: writes := by
  induction writes generalizing bytes with
  | nil => exact List.prefix_rfl
  | cons write writes inductionHypothesis =>
      unfold arrived
      split
      · exact List.cons_prefix_cons.mpr ⟨rfl, inductionHypothesis _⟩
      · exact List.nil_prefix

theorem arrived_all {codec : JsonCodec ν} {writes : List (Write ν)} {bytes : Nat}
    (enough : utf8Bytes (writes.flatMap (Write.text codec)) ≤ bytes) :
    arrived codec bytes writes = writes := by
  induction writes generalizing bytes with
  | nil => rfl
  | cons write writes inductionHypothesis =>
      rw [List.flatMap_cons, utf8Bytes_append] at enough
      rw [arrived, if_pos (by omega), inductionHypothesis (by omega)]

/-- The characters that have arrived are the frames that have, and a part of
the next one in which no frame ends. -/
theorem takeUtf8_writes {codec : JsonCodec ν} {writes : List (Write ν)}
    (legible : forall write, write ∈ writes -> write.Legible codec) (bytes : Nat) :
    Exists fun cut : List Char => findSep frameEnd cut = none ∧
      takeUtf8 bytes (writes.flatMap (Write.text codec)) =
        (arrived codec bytes writes).flatMap (Write.text codec) ++ cut := by
  induction writes generalizing bytes with
  | nil => exact ⟨[], rfl, rfl⟩
  | cons write writes inductionHypothesis =>
      rw [List.flatMap_cons, takeUtf8_append, arrived]
      by_cases whole : utf8Bytes (write.text codec) ≤ bytes
      · rcases inductionHypothesis (fun other member => legible other (List.mem_cons_of_mem _ member))
          (bytes - utf8Bytes (write.text codec)) with ⟨cut, noEnd, rest⟩
        refine ⟨cut, noEnd, ?_⟩
        rw [if_pos whole, if_pos whole, rest, List.flatMap_cons, List.append_assoc]
      · rcases takeUtf8_next (Nat.not_le.mp whole) with ⟨next, rest, split, _⟩
        refine ⟨takeUtf8 bytes (write.text codec), ?_, ?_⟩
        · have shorter := congrArg List.length split
          rw [List.length_append, List.length_cons] at shorter
          have initial := takeUtf8_initial bytes (write.text codec)
          have isPiece := Write.isPiece_body (legible write List.mem_cons_self)
          rw [Write.text_eq] at shorter initial ⊢
          exact findSep_of_cut isPiece initial (by omega)
        · rw [if_neg whole, if_neg whole]
          rfl

/-- The frames that have arrived are the complete ones. -/
theorem complete_takeUtf8 {codec : JsonCodec ν} {writes : List (Write ν)}
    (legible : forall write, write ∈ writes -> write.Legible codec) (bytes : Nat) :
    complete frameEnd (takeUtf8 bytes (writes.flatMap (Write.text codec))) =
      (arrived codec bytes writes).map (Write.body codec) := by
  rcases takeUtf8_writes legible bytes with ⟨cut, noEnd, rest⟩
  have framed : (arrived codec bytes writes).flatMap (Write.text codec) =
      ((arrived codec bytes writes).map (Write.body codec)).flatMap (· ++ frameEnd) := by
    rw [List.flatMap_map]
    exact congrArg (List.flatMap · _) (funext (Write.text_eq codec))
  rw [rest, framed]
  refine complete_pieces frameEnd_ne_nil ?_ noEnd
  intro body member
  rcases List.mem_map.mp member with ⟨write, inArrived, rfl⟩
  exact Write.isPiece_body (legible write ((arrived_initial codec bytes writes).subset inArrived))

/-! ## The round trip -/

/-- No frame begins with a byte order mark. -/
theorem decode_written {codec : JsonCodec ν} {writes : List (Write ν)}
    (first : writes ≠ [] -> writes.head? = some .retry) (bytes : Nat) :
    (TextDecoder.new.decode ((Utf8.encode (writes.flatMap (Write.text codec))).take bytes)).1 =
      takeUtf8 bytes (writes.flatMap (Write.text codec)) := by
  have reads := (Utf8.read_take bytes (writes.flatMap (Write.text codec))).1
  have initial := takeUtf8_initial bytes (writes.flatMap (Write.text codec))
  have unmarked : (takeUtf8 bytes (writes.flatMap (Write.text codec))).head? ≠
      some byteOrderMark := by
    cases text : takeUtf8 bytes (writes.flatMap (Write.text codec)) with
    | nil => exact (Option.some_ne_none byteOrderMark).symm
    | cons character rest =>
        rw [text] at initial
        cases writes with
        | nil => exact absurd (List.prefix_nil.mp initial) (List.cons_ne_nil _ _)
        | cons write writes =>
            have retry := Option.some.inj (first (List.cons_ne_nil _ _))
            subst retry
            have letter : character = 'r' := (List.cons_prefix_cons.mp initial).1
            subst letter
            have apart : 'r' ≠ byteOrderMark := by decide
            exact fun same => apart (Option.some.inj same)
  rw [TextDecoder.decode_new (reads ▸ unmarked), reads]

/-- Reading back what the event stream writes: for any run of the stream, any
subscriber and any way in which a first part of the bytes of its response is cut
into values, `onSnapshot` is called with the snapshots whose frames have arrived,
each once and in the order in which they were published. -/
theorem snapshots_round_trip (maxSubscribers : Nat) (codec : JsonCodec ν) (id : Nat)
    (labels : List (StreamLabel ν)) (values : List (List UInt8))
    (undone : forall event, Write.event event ∈
      (run (Writing.step maxSubscribers codec id) Writing.new labels).history ->
        codec.Undoes event.toJson)
    (received : values.flatten <+: Utf8.encode
      ((run (Writing.step maxSubscribers codec id) Writing.new labels).state.responses id).written) :
    subscribeToEvents codec Reader.new values =
      (arrived codec values.flatten.length
        (run (Writing.step maxSubscribers codec id) Writing.new labels).history.reverse).filterMap
          Write.snapshot := by
  have accounts := Writing.accounts_run maxSubscribers codec id labels
  generalize run (Writing.step maxSubscribers codec id) Writing.new labels = writing
    at undone received accounts ⊢
  have legible : forall write, write ∈ writing.history.reverse -> write.Legible codec := by
    intro write member
    cases write with
    | event event => exact undone event (List.mem_reverse.mp member)
    | retry => exact trivial
    | keepalive => exact trivial
  have first : writing.history.reverse ≠ [] -> writing.history.reverse.head? = some .retry :=
    fun some => accounts.first (fun none => some (List.reverse_eq_nil_iff.mpr none))
  rw [List.prefix_iff_eq_take, accounts.text] at received
  rw [subscribeToEvents_eq codec values rfl]
  generalize values.flatten.length = bytes at received ⊢
  have decoded := @decode_written _ codec _ first bytes
  rw [← received] at decoded
  have text : Reader.new.buffer ++ (Reader.new.decoder.decode values.flatten).1 =
      takeUtf8 bytes (writing.history.reverse.flatMap (Write.text codec)) := decoded
  rw [text, complete_takeUtf8 legible, List.filterMap_map]
  refine List.filterMap_congr (fun write member => ?_)
  exact Write.onFrame_body (legible write ((arrived_initial codec bytes _).subset member))

/-- A snapshot of one queue. -/
def mailSnapshot : ServerEvent Nat :=
  .snapshot [⟨word "mail", [(word "available", 2)], 5⟩] (word "2026-01-01T00:00:00.000Z")

/-- What `JSON.stringify` writes for it. -/
@[irreducible]
def mailText : List Char :=
  ("\x7b\"type\":\"snapshot\",\"at\":\"2026-01-01T00:00:00.000Z\",\"queues\":[" ++
    "\x7b\"queue\":\"mail\",\"counts\":\x7b\"available\":2\x7d," ++
    "\"oldestWaitSeconds\":5\x7d]\x7d").toList

def mailCodec : JsonCodec Nat where
  stringify _ := mailText
  parse text := if text = mailText then some mailSnapshot.toJson else none

theorem mail_undone : mailCodec.Undoes mailSnapshot.toJson where
  parses := by
    unfold mailCodec
    exact if_pos rfl
  oneLine := by
    unfold mailCodec
    decide +kernel

/-- Two comments and a snapshot after `retry`.  The bytes are cut between the two
line ends after `retry`, and within the data. -/
theorem mail_round_trip :
    let writing := run (Writing.step 100 mailCodec 1) Writing.new
      [.subscribe, .interval, .publish mailSnapshot (fun _ => false), .interval]
    let bytes := Utf8.encode (writing.state.responses 1).written
    subscribeToEvents mailCodec Reader.new
      [bytes.take 12, (bytes.drop 12).take 60, (bytes.drop 12).drop 60] = [mailSnapshot.toJson] := by
  intro writing bytes
  generalize values_eq : [bytes.take 12, (bytes.drop 12).take 60, (bytes.drop 12).drop 60] = values
  have whole : values.flatten = bytes := by
    rw [← values_eq, List.flatten_cons, List.flatten_cons, List.flatten_singleton,
      List.take_append_drop, List.take_append_drop]
  have history : writing.history = [.keepalive, .event mailSnapshot, .keepalive, .retry] := rfl
  have undone : forall event, Write.event event ∈ writing.history ->
      mailCodec.Undoes event.toJson := by
    intro event member
    rw [history] at member
    have same : event = mailSnapshot := by
      simpa only [List.mem_cons, Write.event.injEq, reduceCtorEq, List.not_mem_nil, false_or,
        or_false] using member
    rw [same]
    exact mail_undone
  have received : values.flatten <+: bytes := whole ▸ List.prefix_rfl
  have calls := snapshots_round_trip 100 mailCodec 1 _ values undone received
  have accounts : Writing.Accounts mailCodec 1 writing := Writing.accounts_run 100 mailCodec 1 _
  have length : values.flatten.length =
      utf8Bytes (writing.history.reverse.flatMap (Write.text mailCodec)) := by
    rw [whole, Utf8.length_encode, accounts.text]
  have enough := Nat.le_of_eq length.symm
  rw [calls]
  refine (congrArg (List.filterMap Write.snapshot) (arrived_all enough)).trans ?_
  exact congrArg (fun history : List (Write Nat) => history.reverse.filterMap Write.snapshot) history

end PgJobQ
