import PgJobQ.Library.Utf16
import PgJobQ.Schema.Types

/-!
# From a thrown value to an error record

A handler can throw anything.  `normalizeError` turns the value into three
texts, `truncate` bounds each of them, `JSON.stringify` writes the record and
the database reads it back as `jsonb`.  Every stage has a domain of its own:
`Buffer.from` refuses what is neither a text nor like an array, JSON cannot
write a `bigint` or a cycle, and `jsonb` has no U+0000 and no unpaired
surrogate.

A value is kept by what the code can observe of it.  What Node makes of an
object that stands where a text is expected, and what reading a property of
an object brings about, is part of the value: getters, proxies and methods
can make it anything.
-/

namespace PgJobQ

open Utf16

/-! ## Texts in jsonb -/

/-- The database can hold the text in a `jsonb` string. -/
def Storable (text : Text) : Prop :=
  forall character, character ∈ decode text -> character ≠ none ∧ character ≠ some '\x00'

instance (text : Text) : Decidable (Storable text) :=
  inferInstanceAs (Decidable (forall character, character ∈ decode text -> _))

/-- The string the `jsonb` cast reads, if it accepts the text. -/
def jsonbText (text : Text) : Option String :=
  if Storable text then some (String.ofList (toWellFormed text)) else none

theorem jsonbText_isSome_iff (text : Text) : (jsonbText text).isSome = true <-> Storable text := by
  unfold jsonbText
  split
  · rename_i storable
    simp [storable]
  · rename_i refused
    simp [refused]

theorem storable_encode_iff (characters : List Char) :
    Storable (encode characters) <-> Not ('\x00' ∈ characters) := by
  unfold Storable
  rw [decode_encode]
  constructor
  · intro storable nul
    exact (storable (some '\x00') (List.mem_map.mpr ⟨_, nul, rfl⟩)).2 rfl
  · intro absent character member
    rcases List.mem_map.mp member with ⟨source, sourceMem, rfl⟩
    refine ⟨Option.some_ne_none source, ?_⟩
    intro nul
    exact absent (Option.some.inj nul ▸ sourceMem)

/-! ## Truncation -/

/-- `…[truncated]`. -/
def marker : List Char := "…[truncated]".toList

/-- `.replace(/\uFFFD$/, '')`. -/
def stripReplacement (characters : List Char) : List Char :=
  if characters.getLast? = some replacement then characters.dropLast else characters

theorem stripReplacement_sublist (characters : List Char) :
    (stripReplacement characters).Sublist characters := by
  unfold stripReplacement
  split
  · exact List.dropLast_sublist characters
  · exact List.Sublist.refl characters

/-- `Math.max(0, maxBytes - markerBytes)`. -/
def room (maxBytes : Nat) : Nat := maxBytes - utf8Bytes marker

/-- Truncate by UTF-8 byte length. -/
def truncate (s : Text) (maxBytes : Nat) : Text :=
  if s.length = 0 then s
  else if utf8Bytes (toWellFormed s) ≤ maxBytes then s
  else encode (stripReplacement (cutUtf8 (room maxBytes) (toWellFormed s)) ++ marker)

/-- A text that fits is stored as it is.  A text that is cut has lost its
unpaired surrogates on the way through UTF-8, and only a U+0000 in the part
that is kept can be refused. -/
theorem truncate_storable_iff (s : Text) (maxBytes : Nat) :
    Storable (truncate s maxBytes) <->
      if utf8Bytes (toWellFormed s) ≤ maxBytes then Storable s
      else Not ('\x00' ∈ takeUtf8 (room maxBytes) (toWellFormed s)) := by
  unfold truncate
  split
  · rename_i empty
    rw [List.length_eq_zero_iff] at empty
    subst empty
    have fits : utf8Bytes (toWellFormed []) ≤ maxBytes := Nat.zero_le maxBytes
    rw [if_pos fits]
  · split
    · rfl
    · rw [storable_encode_iff]
      apply not_congr
      rw [List.mem_append]
      constructor
      · rintro (kept | inMarker)
        · rcases mem_cutUtf8 ((stripReplacement_sublist _).subset kept) with inside | cut
          · exact inside
          · exact absurd cut (by decide)
        · exact absurd inMarker (by decide)
      · intro inside
        refine Or.inl ?_
        have inCut : '\x00' ∈ cutUtf8 (room maxBytes) (toWellFormed s) := by
          unfold cutUtf8
          dsimp only
          split
          · exact List.mem_append_left _ inside
          · exact inside
        -- only a U+FFFD at the end is stripped
        unfold stripReplacement
        split
        · rename_i last
          apply List.mem_dropLast_of_mem_of_ne_getLast? inCut
          rw [last]
          decide
        · exact inCut

/-- What can be stored whole can be stored truncated. -/
theorem Storable.truncate {s : Text} (storable : Storable s) (maxBytes : Nat) :
    Storable (PgJobQ.truncate s maxBytes) := by
  rw [truncate_storable_iff]
  split
  · exact storable
  · intro nul
    have inside := (takeUtf8_initial _ _).subset nul
    rcases List.mem_map.mp inside with ⟨source, sourceMem, isNul⟩
    have good := storable source sourceMem
    cases source with
    | none => exact good.1 rfl
    | some character => exact good.2 (congrArg some isNul)

/-! ## What a handler can throw -/

/-- What `JSON.stringify` makes of a member, and the `jsonb` cast of that.
`stored none` is a text the cast refuses. -/
inductive Serialized where
  | throws
  | omitted
  | stored (value : Option String)
  deriving DecidableEq, Repr

/-- A buffer: its length and what `subarray(0, n).toString('utf8')` reads. -/
structure BufferView where
  byteLength : Nat
  text : Nat -> List Char

/-- What the code observes of an object in the place of a text: `s.length === 0`
(none if reading it throws), `Buffer.from(s, 'utf8')` (none if it throws), and
the object as a member of the record. -/
structure ObjectView where
  emptyLength : Option Bool
  buffer : Option BufferView
  member : Serialized

/-- A value of `name`, `message` or `stack`.  Numbers are told apart by
whether they count as false; a function by whether its `length` is zero. -/
inductive FieldValue where
  | undefined
  | null
  | boolean (value : Bool)
  | number (falsy : Bool)
  | bigint (zero : Bool)
  | string (text : Text)
  | symbol
  | function (emptyLength : Bool)
  | object (view : ObjectView)

namespace FieldValue

/-- The value counts as true in `||`. -/
def truthy : FieldValue -> Bool
  | undefined => false
  | null => false
  | boolean value => value
  | number falsy => !falsy
  | bigint zero => !zero
  | string text => text.length != 0
  | symbol => true
  | function _ => true
  | object _ => true

end FieldValue

/-- A value that `truncate` has returned: a text, or the value itself. -/
inductive TruncatedValue where
  | text (text : Text)
  | function
  | object (view : ObjectView)

namespace FieldValue

/-- `truncate`, applied to any value; none if it throws. -/
def truncate (maxBytes : Nat) : FieldValue -> Option TruncatedValue
  | string text => some (.text (PgJobQ.truncate text maxBytes))
  | function emptyLength => if emptyLength then some .function else none
  | object view =>
      match view.emptyLength, view.buffer with
      | some true, _ => some (.object view)
      | some false, some buffer =>
          if buffer.byteLength ≤ maxBytes then some (.object view)
          else some (.text (encode (stripReplacement (buffer.text (room maxBytes)) ++ marker)))
      | _, _ => none
  | _ => none

end FieldValue

/-- The value as a member of the record. -/
def TruncatedValue.serialize : TruncatedValue -> Serialized
  | .text kept => .stored (jsonbText kept)
  | .function => .omitted
  | .object view => view.member

/-- A delay in a `RetryAfterError`, a JavaScript number of milliseconds; a
finite one is kept in microseconds, as `make_interval` rounds it. -/
inductive RetryDelay where
  | notANumber
  | negativeInfinity
  | positiveInfinity
  | finite (length : Timestamp)
  deriving DecidableEq, Repr

/-- The class of an error, as far as `instanceof` is asked. -/
inductive ErrorClass where
  | other
  | ownershipLost
  | jobCancelled
  | handlerTimeout
  | nonRetryable
  | retryAfter (retryDelay : RetryDelay)
  deriving DecidableEq, Repr

/-- A property of an object: what `'p' in e && test(e.p)` finds out. -/
inductive Probe where
  | absent
  | unlike
  | like
  | throws
  deriving DecidableEq, Repr

/-- An instance of `Error`.  `asString` is `String(e)`, none if it throws;
`issues` asks for an array and `code` for `'NO_HANDLER'`. -/
structure ErrorValue where
  errorClass : ErrorClass
  name : FieldValue
  message : FieldValue
  stack : FieldValue
  asString : Option Text
  issues : Probe
  code : Probe

/-- The answers of `typeof` that `normalizeError` can print. -/
inductive JsType where
  | boolean
  | number
  | bigint
  | symbol
  | function
  | object
  deriving DecidableEq, Repr

def JsType.text : JsType -> String
  | .boolean => "boolean"
  | .number => "number"
  | .bigint => "bigint"
  | .symbol => "symbol"
  | .function => "function"
  | .object => "object"

/-- A text written by `JSON.stringify`: control characters and unpaired
surrogates are escaped in it. -/
structure JsonText where
  text : Text
  escaped : Storable text

/-- The result of `JSON.stringify`. -/
inductive Stringified where
  | text (json : JsonText)
  | undefined
  | throws

/-- Any other value that is not a string, `undefined` or `null`. -/
structure OtherValue where
  type : JsType
  stringified : Stringified
  issues : Probe
  code : Probe

inductive Thrown where
  | error (e : ErrorValue)
  | string (text : Text)
  | undefined
  | null
  | other (value : OtherValue)

namespace Thrown

def errorClass : Thrown -> ErrorClass
  | error e => e.errorClass
  | _ => .other

/-- The two tests of `classify` that look into an object. -/
def classifyObject (issues code : Probe) : Option ErrorKind :=
  match issues, code with
  | .throws, _ => none
  | .like, _ => some .validationError
  | _, .throws => none
  | _, .like => some .noHandler
  | _, _ => some .handlerError

/-- `classify`; none if a property cannot be read. -/
def classify : Thrown -> Option ErrorKind
  | error e =>
      match e.errorClass with
      | .handlerTimeout => some .timeout
      | .nonRetryable => some .handlerError
      | _ => classifyObject e.issues e.code
  | other value =>
      if value.type = .object then classifyObject value.issues value.code else some .handlerError
  | _ => some .handlerError

/-- `isNonRetryable`. -/
def isNonRetryable (thrown : Thrown) : Bool := thrown.errorClass = .nonRetryable

end Thrown

/-! ## Normalization -/

/-- A text of the source. -/
def literal (text : String) : FieldValue := .string (encode text.toList)

/-- `e.name`, `e.message` and `e.stack` with their fallbacks; none if the
fallback throws. -/
def describeError (e : ErrorValue) : Option (FieldValue × FieldValue × FieldValue) :=
  let name := if e.name.truthy then e.name else literal "Error"
  let stack := match e.stack with
    | .undefined => literal ""
    | .null => literal ""
    | stack => stack
  if e.message.truthy then some (name, e.message, stack)
  else e.asString.map (fun message => (name, .string message, stack))

/-- The message of a thrown value that is not an error. -/
def describeOther (value : OtherValue) : FieldValue :=
  match value.stringified with
  | .text json => .string json.text
  | .undefined => literal ("[" ++ value.type.text ++ " with no JSON representation]")
  | .throws => literal ("[unserializable " ++ value.type.text ++ ", possibly circular]")

def describe : Thrown -> Option (FieldValue × FieldValue × FieldValue)
  | .error e => describeError e
  | .string text => some (literal "ThrownString", .string text, literal "")
  | .undefined =>
      some (literal "ThrownUndefined", literal "Handler rejected with no reason", literal "")
  | .null => some (literal "ThrownNull", literal "Handler rejected with null", literal "")
  | .other value => some (literal "ThrownValue", describeOther value, literal "")

/-- The three texts of a record. -/
structure NormalizedError where
  name : TruncatedValue
  message : TruncatedValue
  stack : TruncatedValue

/-- `normalizeError`, without the columns that do not come from the value;
none if it throws. -/
def normalizeError (thrown : Thrown) (maxTextBytes : Nat) : Option NormalizedError :=
  match describe thrown with
  | none => none
  | some (name, message, stack) =>
      match name.truncate 256, message.truncate maxTextBytes, stack.truncate maxTextBytes with
      | some name, some message, some stack => some ⟨name, message, stack⟩
      | _, _, _ => none

/-! ## The record in the database -/

/-- `JSON.stringify` writes the record. -/
def NormalizedError.writable (normalized : NormalizedError) : Bool :=
  normalized.name.serialize != .throws && normalized.message.serialize != .throws &&
    normalized.stack.serialize != .throws

/-- A member as the `jsonb` cast reads it, if it does; an omitted member is
absent from the record. -/
def Serialized.cast : Serialized -> Option (Option String)
  | .throws => none
  | .omitted => some none
  | .stored none => none
  | .stored (some text) => some (some text)

/-- The record as the `jsonb` cast reads it, if it does. -/
def NormalizedError.asRecord (normalized : NormalizedError) (kind : ErrorKind) (attempt : Int)
    (recordedAt : Timestamp) (workerId : String) : Option JobErrorRecord :=
  match normalized.name.serialize.cast, normalized.message.serialize.cast,
      normalized.stack.serialize.cast with
  | some name, some message, some stack => some {
      attempt := attempt
      recordedAt := recordedAt
      kind := kind
      name := name
      message := message
      stack := stack
      workerId := some workerId }
  | _, _, _ => none

end PgJobQ
