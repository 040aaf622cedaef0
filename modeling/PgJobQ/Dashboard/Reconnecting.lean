import Mathlib.Data.List.Induction
import PgJobQ.Dashboard.Subscription
import PgJobQ.Server.Subscribers

/-!
# The dashboard over several connections

`subscribeToEvents` connects again whenever its stream ends or fails.  Each
connection is a subscriber of its own, and what is published between two of
them is not seen.  What is seen is in order nevertheless, since a connection is
read to its end before the next one is opened.  While a connection lasts
nothing is left out.
-/

namespace PgJobQ

open Runs Splitting Utf16

variable {ν : Type}

/-! ## The loop of `subscribeToEvents` -/

/-- What the loop awaits: its timer, the response to `fetch`, or the next value
of the response with this id, of which so many bytes have been read. -/
inductive ViewerPhase where
  | waiting
  | requested (id : Nat)
  | reading (id bytes : Nat) (reader : Reader)
  | returned

/-- The loop, with the last call of `onStatus` and all calls of `onSnapshot`. -/
structure Viewer (ν : Type) where
  phase : ViewerPhase
  stopped : Bool
  connected : Bool
  shown : List (Json ν)

/-- A label of the stream, or of the viewer.  `connect` is the request that
reaches `subscribe`, `refused` one that does not, `opened` the response, `read`
a value of so many bytes, `ended` the end of the response and `fails` an error
of the request or of a read. -/
inductive ViewerLabel (ν : Type) where
  | server (label : StreamLabel ν)
  | connect
  | refused
  | opened
  | read (count : Nat)
  | ended
  | fails
  | stop

structure Viewing (ν : Type) where
  stream : EventStream
  viewer : Viewer ν

namespace Viewing

def start : Viewing ν := ⟨EventStream.new, ⟨.waiting, false, false, []⟩⟩

/-- The bytes of a response. -/
def bytesOf (viewing : Viewing ν) (id : Nat) : List UInt8 :=
  Utf8.encode (viewing.stream.responses id).written

/-- `catch`, and the wait before the next attempt. -/
def fail (viewer : Viewer ν) : Viewer ν :=
  if viewer.stopped then { viewer with phase := .returned }
  else { viewer with phase := .waiting, connected := false }

def step (maxSubscribers : Nat) (codec : JsonCodec ν) (viewing : Viewing ν) :
    ViewerLabel ν -> Viewing ν
  | .server label => { viewing with stream := viewing.stream.step maxSubscribers codec label }
  | .connect =>
      match viewing.viewer.phase with
      | .waiting =>
          if viewing.viewer.stopped then
            { viewing with viewer := { viewing.viewer with phase := .returned } }
          else if maxSubscribers ≤ viewing.stream.subscribers.length then
            -- 503: `stream failed` is thrown.
            { viewing with viewer := fail viewing.viewer }
          else
            { stream := viewing.stream.step maxSubscribers codec .subscribe
              viewer := { viewing.viewer with phase := .requested viewing.stream.nextId } }
      | _ => viewing
  | .refused =>
      match viewing.viewer.phase with
      | .waiting => { viewing with viewer := fail viewing.viewer }
      | _ => viewing
  | .opened =>
      match viewing.viewer.phase with
      | .requested id =>
          { viewing with viewer :=
            { viewing.viewer with phase := .reading id 0 Reader.new, connected := true } }
      | _ => viewing
  | .read count =>
      match viewing.viewer.phase with
      | .reading id bytes reader =>
          let value := ((viewing.bytesOf id).drop bytes).take count
          let read := reader.read codec value
          { viewing with viewer :=
            { viewing.viewer with
              phase := .reading id (bytes + value.length) read.2
              shown := viewing.viewer.shown ++ read.1 } }
      | _ => viewing
  | .ended =>
      match viewing.viewer.phase with
      | .reading id bytes _ =>
          if (viewing.stream.responses id).ended ∧ bytes = (viewing.bytesOf id).length then
            { viewing with viewer := { viewing.viewer with phase := .waiting, connected := false } }
          else viewing
      | _ => viewing
  | .fails =>
      match viewing.viewer.phase with
      | .requested _ => { viewing with viewer := fail viewing.viewer }
      | .reading _ _ _ => { viewing with viewer := fail viewing.viewer }
      | _ => viewing
  | .stop => { viewing with viewer := { viewing.viewer with stopped := true } }

end Viewing

/-- The stream and its viewer after the labels. -/
def viewingAfter (maxSubscribers : Nat) (codec : JsonCodec ν) (labels : List (ViewerLabel ν)) :
    Viewing ν :=
  run (Viewing.step maxSubscribers codec) Viewing.start labels

/-- The event that a label publishes. -/
def ViewerLabel.published : ViewerLabel ν -> Option (ServerEvent ν)
  | .server (.publish event _) => some event
  | _ => none

/-- The snapshots that the labels publish, as values. -/
def publishedSnapshots (labels : List (ViewerLabel ν)) : List (Json ν) :=
  (labels.filterMap ViewerLabel.published).filterMap (fun event => Write.snapshot (.event event))

theorem publishedSnapshots_append (before after : List (ViewerLabel ν)) :
    publishedSnapshots (before ++ after) = publishedSnapshots before ++ publishedSnapshots after := by
  simp [publishedSnapshots, List.filterMap_append]

/-! ## One connection -/

/-- The reader after these values. -/
def Reader.after (codec : JsonCodec ν) (reader : Reader) (values : List (List UInt8)) : Reader :=
  values.foldl (fun reader value => (reader.read codec value).2) reader

theorem subscribeToEvents_concat (codec : JsonCodec ν) (reader : Reader)
    (values : List (List UInt8)) (value : List UInt8) :
    subscribeToEvents codec reader (values ++ [value]) =
      subscribeToEvents codec reader values ++
        ((reader.after codec values).read codec value).1 := by
  induction values generalizing reader with
  | nil => exact List.append_nil _
  | cons first values inductionHypothesis =>
      rw [List.cons_append, subscribeToEvents, subscribeToEvents, inductionHypothesis,
        List.append_assoc]
      exact rfl

/-- What the values that have been read show: the snapshots whose frames they
complete. -/
theorem subscribeToEvents_of_writes {codec : JsonCodec ν} {writes : List (Write ν)}
    (legible : forall write, write ∈ writes -> write.Legible codec)
    (first : writes ≠ [] -> writes.head? = some .retry) {values : List (List UInt8)}
    (received : values.flatten <+: Utf8.encode (writes.flatMap (Write.text codec))) :
    subscribeToEvents codec Reader.new values =
      (arrived codec values.flatten.length writes).filterMap Write.snapshot := by
  rw [List.prefix_iff_eq_take] at received
  rw [subscribeToEvents_eq codec values rfl]
  generalize values.flatten.length = bytes at received ⊢
  have decoded := @decode_written _ codec _ first bytes
  rw [← received] at decoded
  have text : Reader.new.buffer ++ (Reader.new.decoder.decode values.flatten).1 =
      takeUtf8 bytes (writes.flatMap (Write.text codec)) := decoded
  rw [text, complete_takeUtf8 legible, List.filterMap_map]
  exact List.filterMap_congr (fun write member =>
    Write.onFrame_body (legible write ((arrived_initial codec bytes _).subset member)))

/-! ## The invariant -/

section

variable {maxSubscribers : Nat} {codec : JsonCodec ν}

theorem Viewing.sound_step {viewing : Viewing ν} (sound : viewing.stream.Sound maxSubscribers)
    (label : ViewerLabel ν) :
    (viewing.step maxSubscribers codec label).stream.Sound maxSubscribers := by
  cases label with
  | server label => exact sound.step label
  | connect =>
      simp only [Viewing.step]
      split
      · split
        · exact sound
        · split
          · exact sound
          · exact sound.step .subscribe
      · exact sound
  | refused =>
      simp only [Viewing.step]
      split <;> exact sound
  | opened =>
      simp only [Viewing.step]
      split <;> exact sound
  | read count =>
      simp only [Viewing.step]
      split <;> exact sound
  | ended =>
      simp only [Viewing.step]
      split
      · split <;> exact sound
      · exact sound
  | fails =>
      simp only [Viewing.step]
      split <;> exact sound
  | stop => exact sound

theorem viewing_sound (labels : List (ViewerLabel ν)) :
    (viewingAfter maxSubscribers codec labels).stream.Sound maxSubscribers := by
  apply @run_invariant _ _ (Viewing.step maxSubscribers codec)
    (fun viewing => viewing.stream.Sound maxSubscribers)
  · exact fun _ label sound => Viewing.sound_step sound label
  · exact EventStream.Sound.new

/-- The response of a subscriber, with what was written to it and what was
published since it was attached. -/
structure Serves (codec : JsonCodec ν) (stream : EventStream) (id : Nat)
    (writes : List (Write ν)) (since : List (Json ν)) : Prop where
  text : (stream.responses id).written = writes.flatMap (Write.text codec)
  drawn : id < stream.nextId
  first : writes.head? = some .retry
  legible : forall write, write ∈ writes -> write.Legible codec
  ordered : (writes.filterMap Write.snapshot).Sublist since
  whole : id ∈ stream.subscribers -> writes.filterMap Write.snapshot = since

/-- A label of the stream. -/
theorem Serves.step {stream : EventStream} {id : Nat} {writes : List (Write ν)}
    {since : List (Json ν)} (serves : Serves codec stream id writes since) (label : StreamLabel ν)
    (undone : forall event tooSlow, label = .publish event tooSlow -> codec.Undoes event.toJson) :
    Serves codec (stream.step maxSubscribers codec label) id
      (writes ++ (stream.written maxSubscribers id label).toList)
      (since ++ publishedSnapshots [ViewerLabel.server label]) where
  text := by
    rw [EventStream.responses_step, serves.text, List.flatMap_append]
  drawn := Nat.lt_of_lt_of_le serves.drawn (EventStream.nextId_step label)
  first := by
    rw [List.head?_append, serves.first]
    exact rfl
  legible := by
    intro write member
    rcases List.mem_append.mp member with earlier | new
    · exact serves.legible write earlier
    · have wrote := Option.mem_toList.mp new
      cases label with
      | subscribe =>
          simp only [EventStream.written] at wrote
          split at wrote
          · cases wrote
            exact trivial
          · cases wrote
      | publish event tooSlow =>
          simp only [EventStream.written] at wrote
          split at wrote
          · cases wrote
            exact undone event tooSlow rfl
          · cases wrote
      | interval =>
          simp only [EventStream.written] at wrote
          split at wrote
          · cases wrote
            exact trivial
          · cases wrote
      | closed other => cases wrote
      | close => cases wrote
  ordered := by
    rw [List.filterMap_append]
    refine serves.ordered.append ?_
    cases label with
    | publish event tooSlow =>
        simp only [EventStream.written]
        split
        · exact List.Sublist.refl _
        · exact List.nil_sublist _
    | subscribe =>
        simp only [EventStream.written]
        split <;> exact List.nil_sublist _
    | interval =>
        simp only [EventStream.written]
        split <;> exact List.nil_sublist _
    | closed other => exact List.nil_sublist _
    | close => exact List.nil_sublist _
  whole := by
    intro attached
    have before : id ∈ stream.subscribers := by
      rcases EventStream.step_attaches maxSubscribers codec id stream label with
        ⟨_, _, _, subscribers⟩ | ⟨_, stays, _⟩
      · rcases List.mem_append.mp (subscribers ▸ attached) with earlier | new
        · exact earlier
        · exact absurd (List.mem_singleton.mp new) (Nat.ne_of_lt serves.drawn)
      · exact stays attached
    rw [List.filterMap_append, serves.whole before]
    congr 1
    cases label with
    | publish event tooSlow =>
        simp only [EventStream.written, if_pos before]
        exact rfl
    | subscribe =>
        simp only [EventStream.written]
        split <;> exact rfl
    | interval =>
        simp only [EventStream.written]
        split <;> exact rfl
    | closed other => exact rfl
    | close => exact rfl

/-- A viewer that asks for the stream is served from the first frame on. -/
theorem serves_new {stream : EventStream} (sound : stream.Sound maxSubscribers)
    (room : stream.subscribers.length < maxSubscribers) :
    Serves codec (stream.step maxSubscribers codec .subscribe) stream.nextId
      ([.retry] : List (Write ν)) [] := by
  have done := @EventStream.step_of_admitted ν maxSubscribers codec stream.nextId stream ⟨room, rfl⟩
  refine ⟨?_, ?_, rfl, ?_, List.Sublist.refl _, fun _ => rfl⟩
  · rw [done.2.2, sound.unused stream.nextId (Nat.le_refl _)]
    simp [StreamResponse.write]
  · rw [done.2.1]
    exact Nat.lt_succ_self _
  · intro write member
    rw [List.mem_singleton.mp member]
    exact trivial

/-- The phase of a viewer that has read these values of a response. -/
inductive ReadSoFar (codec : JsonCodec ν) (id : Nat) : List (List UInt8) -> ViewerPhase -> Prop where
  | requested : ReadSoFar codec id [] (.requested id)
  | reading (values : List (List UInt8)) : ReadSoFar codec id values
      (.reading id values.flatten.length (Reader.new.after codec values))

/-- Where a viewer stands.  Without a connection it has shown a part of what was
published, in order; with one, what it had shown before and what the values read
from the response complete. -/
inductive Watches (maxSubscribers : Nat) (codec : JsonCodec ν) (labels : List (ViewerLabel ν))
    (viewing : Viewing ν) : Prop where
  | apart (idle : viewing.viewer.phase = .waiting ∨ viewing.viewer.phase = .returned)
      (ordered : viewing.viewer.shown.Sublist (publishedSnapshots labels))
  | connected {before during : List (ViewerLabel ν)} {id : Nat} {values : List (List UInt8)}
      {writes : List (Write ν)} (split : labels = before ++ .connect :: during)
      (asked : (viewingAfter maxSubscribers codec before).stream.nextId = id)
      (earlier : (viewingAfter maxSubscribers codec before).viewer.shown.Sublist
        (publishedSnapshots before))
      (read : ReadSoFar codec id values viewing.viewer.phase)
      (received : values.flatten <+: viewing.bytesOf id)
      (shown : viewing.viewer.shown = (viewingAfter maxSubscribers codec before).viewer.shown ++
        subscribeToEvents codec Reader.new values)
      (serves : Serves codec viewing.stream id writes (publishedSnapshots during))

variable {labels : List (ViewerLabel ν)} {viewing : Viewing ν}

theorem Serves.shown {stream : EventStream} {id : Nat} {writes : List (Write ν)}
    {since : List (Json ν)} (serves : Serves codec stream id writes since)
    {values : List (List UInt8)}
    (received : values.flatten <+: Utf8.encode (stream.responses id).written) :
    subscribeToEvents codec Reader.new values =
      (arrived codec values.flatten.length writes).filterMap Write.snapshot :=
  subscribeToEvents_of_writes serves.legible (fun _ => serves.first) (serves.text ▸ received)

/-- What a viewer has shown is in order. -/
theorem Watches.ordered (watches : Watches maxSubscribers codec labels viewing) :
    viewing.viewer.shown.Sublist (publishedSnapshots labels) := by
  cases watches with
  | apart idle ordered => exact ordered
  | @connected before during id values writes split asked earlier read received shown serves =>
      have part : ((arrived codec values.flatten.length writes).filterMap Write.snapshot).Sublist
          (publishedSnapshots during) :=
        ((arrived_initial codec _ writes).sublist.filterMap _).trans serves.ordered
      rw [shown, serves.shown received, split]
      rw [show before ++ ViewerLabel.connect :: during = before ++ ([.connect] ++ during) from rfl,
        publishedSnapshots_append, publishedSnapshots_append]
      exact earlier.append part

/-- A viewer that is connected shows all that was published since, once it has
read all that was written. -/
theorem Watches.whole (watches : Watches maxSubscribers codec labels viewing) {id bytes : Nat}
    {reader : Reader} (reading : viewing.viewer.phase = .reading id bytes reader)
    (attached : id ∈ viewing.stream.subscribers) (all : bytes = (viewing.bytesOf id).length) :
    Exists fun before : List (ViewerLabel ν) => Exists fun during : List (ViewerLabel ν) =>
      labels = before ++ .connect :: during ∧
        (viewingAfter maxSubscribers codec before).stream.nextId = id ∧
        viewing.viewer.shown = (viewingAfter maxSubscribers codec before).viewer.shown ++
          publishedSnapshots during := by
  cases watches with
  | apart idle ordered =>
      rw [reading] at idle
      rcases idle with same | same <;> cases same
  | @connected before during other values writes split asked earlier read received shown serves =>
      rw [reading] at read
      cases read with
      | reading =>
          refine ⟨before, during, split, asked, ?_⟩
          have same : utf8Bytes (writes.flatMap (Write.text codec)) = values.flatten.length := by
            rw [all, Viewing.bytesOf, Utf8.length_encode, serves.text]
          rw [shown, serves.shown received, arrived_all (Nat.le_of_eq same), serves.whole attached]

theorem phase_fail (viewer : Viewer ν) :
    (Viewing.fail viewer).phase = .waiting ∨ (Viewing.fail viewer).phase = .returned := by
  unfold Viewing.fail
  split
  · exact Or.inr rfl
  · exact Or.inl rfl

theorem shown_fail (viewer : Viewer ν) : (Viewing.fail viewer).shown = viewer.shown := by
  unfold Viewing.fail
  split <;> exact rfl

/-- A viewer without a connection. -/
theorem watches_of_idle (sound : viewing.stream.Sound maxSubscribers)
    (isAfter : viewing = viewingAfter maxSubscribers codec labels)
    (idle : viewing.viewer.phase = .waiting ∨ viewing.viewer.phase = .returned)
    (ordered : viewing.viewer.shown.Sublist (publishedSnapshots labels))
    (label : ViewerLabel ν) :
    Watches maxSubscribers codec (labels ++ [label])
      (viewing.step maxSubscribers codec label) := by
  have later : viewing.viewer.shown.Sublist (publishedSnapshots (labels ++ [label])) := by
    rw [publishedSnapshots_append]
    exact ordered.trans (List.sublist_append_left _ _)
  have failed : Watches maxSubscribers codec (labels ++ [label])
      { viewing with viewer := Viewing.fail viewing.viewer } :=
    .apart (phase_fail _) ((shown_fail viewing.viewer).symm ▸ later)
  have stays : Watches maxSubscribers codec (labels ++ [label]) viewing := .apart idle later
  cases label with
  | server label => exact .apart idle later
  | stop => exact .apart idle later
  | opened =>
      rcases idle with same | same <;> simp only [Viewing.step, same] <;> exact stays
  | read count =>
      rcases idle with same | same <;> simp only [Viewing.step, same] <;> exact stays
  | ended =>
      rcases idle with same | same <;> simp only [Viewing.step, same] <;> exact stays
  | fails =>
      rcases idle with same | same <;> simp only [Viewing.step, same] <;> exact stays
  | refused =>
      rcases idle with same | same
      · simp only [Viewing.step, same]
        exact failed
      · simp only [Viewing.step, same]
        exact stays
  | connect =>
      rcases idle with same | same
      · simp only [Viewing.step, same]
        split
        · exact .apart (Or.inr rfl) later
        · split
          · exact failed
          · rename_i full
            refine @Watches.connected ν maxSubscribers codec _ _ labels [] viewing.stream.nextId []
              [.retry] rfl ?_ ?_ .requested List.nil_prefix ?_ ?_
            · exact isAfter ▸ rfl
            · exact isAfter ▸ ordered
            · rw [← isAfter]
              exact (List.append_nil _).symm
            · exact serves_new sound (Nat.not_le.mp full)
      · simp only [Viewing.step, same]
        exact stays

/-- What comes next of the bytes continues what has been read. -/
theorem prefix_of_read {bytes : List UInt8} {values : List (List UInt8)}
    (received : values.flatten <+: bytes) (count : Nat) :
    (values ++ [(bytes.drop values.flatten.length).take count]).flatten <+: bytes := by
  rw [List.flatten_concat]
  rcases received with ⟨rest, whole⟩
  rw [← whole, List.drop_left]
  exact (List.prefix_append_right_inj _).mpr (List.take_prefix _ _)

theorem readSoFar_concat (codec : JsonCodec ν) (id : Nat) (values : List (List UInt8))
    (value : List UInt8) :
    ReadSoFar codec id (values ++ [value]) (.reading id (values.flatten.length + value.length)
      ((Reader.new.after codec values).read codec value).2) := by
  have read := @ReadSoFar.reading ν codec id (values ++ [value])
  rw [List.flatten_concat, List.length_append, Reader.after, List.foldl_append] at read
  exact read

/-- A viewer with a connection. -/
theorem watches_of_connected {before during : List (ViewerLabel ν)} {id : Nat}
    {values : List (List UInt8)} {writes : List (Write ν)}
    (split : labels = before ++ .connect :: during)
    (asked : (viewingAfter maxSubscribers codec before).stream.nextId = id)
    (earlier : (viewingAfter maxSubscribers codec before).viewer.shown.Sublist
      (publishedSnapshots before))
    (read : ReadSoFar codec id values viewing.viewer.phase)
    (received : values.flatten <+: viewing.bytesOf id)
    (shown : viewing.viewer.shown = (viewingAfter maxSubscribers codec before).viewer.shown ++
      subscribeToEvents codec Reader.new values)
    (serves : Serves codec viewing.stream id writes (publishedSnapshots during))
    {label : ViewerLabel ν} (undone : forall event tooSlow,
      label = .server (.publish event tooSlow) -> codec.Undoes event.toJson) :
    Watches maxSubscribers codec (labels ++ [label])
      (viewing.step maxSubscribers codec label) := by
  have longer : labels ++ [label] = before ++ .connect :: (during ++ [label]) := by
    rw [split, List.append_assoc]
    exact rfl
  have ordered : viewing.viewer.shown.Sublist (publishedSnapshots (labels ++ [label])) := by
    rw [publishedSnapshots_append]
    exact (Watches.ordered (.connected split asked earlier read received shown serves)).trans
      (List.sublist_append_left _ _)
  have failed : Watches maxSubscribers codec (labels ++ [label])
      { viewing with viewer := Viewing.fail viewing.viewer } :=
    .apart (phase_fail _) ((shown_fail viewing.viewer).symm ▸ ordered)
  -- A label of the viewer publishes nothing.
  have same : publishedSnapshots [label] = [] -> publishedSnapshots (during ++ [label]) =
      publishedSnapshots during := by
    intro silent
    rw [publishedSnapshots_append, silent, List.append_nil]
  have stays : publishedSnapshots [label] = [] ->
      Watches maxSubscribers codec (labels ++ [label]) viewing := by
    intro silent
    exact .connected longer asked earlier read received shown ((same silent).symm ▸ serves)
  cases label with
  | server label =>
      have next := @Serves.step ν maxSubscribers codec _ _ _ _ serves label
        (fun event tooSlow publishes => undone event tooSlow (congrArg ViewerLabel.server publishes))
      rw [← publishedSnapshots_append] at next
      refine .connected longer asked earlier read ?_ shown next
      have more : viewing.bytesOf id <+:
          (viewing.step maxSubscribers codec (.server label)).bytesOf id := by
        unfold Viewing.bytesOf
        simp only [Viewing.step]
        rw [EventStream.responses_step, Utf8.encode, Utf8.encode, List.flatMap_append]
        exact List.prefix_append _ _
      exact received.trans more
  | stop => exact .connected longer asked earlier read received shown ((same rfl).symm ▸ serves)
  | connect =>
      generalize phase : viewing.viewer.phase = now at read
      cases read <;> simp only [Viewing.step, phase] <;> exact stays rfl
  | refused =>
      generalize phase : viewing.viewer.phase = now at read
      cases read <;> simp only [Viewing.step, phase] <;> exact stays rfl
  | opened =>
      generalize phase : viewing.viewer.phase = now at read
      cases read with
      | requested =>
          simp only [Viewing.step, phase]
          exact .connected longer asked earlier (.reading []) received shown ((same rfl).symm ▸ serves)
      | reading =>
          simp only [Viewing.step, phase]
          exact stays rfl
  | read count =>
      generalize phase : viewing.viewer.phase = now at read
      cases read with
      | requested =>
          simp only [Viewing.step, phase]
          exact stays rfl
      | reading =>
          simp only [Viewing.step, phase]
          have more := prefix_of_read received count
          generalize ((viewing.bytesOf id).drop values.flatten.length).take count = value at more
          refine .connected longer asked earlier (readSoFar_concat codec id values value) more ?_
            ((same rfl).symm ▸ serves)
          rw [subscribeToEvents_concat, ← List.append_assoc, ← shown]
  | ended =>
      generalize phase : viewing.viewer.phase = now at read
      cases read with
      | requested =>
          simp only [Viewing.step, phase]
          exact stays rfl
      | reading =>
          simp only [Viewing.step, phase]
          split
          · exact .apart (Or.inl rfl) ordered
          · exact stays rfl
  | fails =>
      generalize phase : viewing.viewer.phase = now at read
      cases read <;> simp only [Viewing.step, phase] <;> exact failed

end

/-! ## Runs -/

theorem watches_of_run (maxSubscribers : Nat) (codec : JsonCodec ν) (labels : List (ViewerLabel ν))
    (undone : forall event tooSlow, .server (.publish event tooSlow) ∈ labels ->
      codec.Undoes event.toJson) :
    Watches maxSubscribers codec labels (viewingAfter maxSubscribers codec labels) := by
  induction labels using List.reverseRecOn with
  | nil => exact .apart (Or.inl rfl) (List.Sublist.refl _)
  | append_singleton labels label inductionHypothesis =>
      have next : viewingAfter maxSubscribers codec (labels ++ [label]) =
          (viewingAfter maxSubscribers codec labels).step maxSubscribers codec label :=
        run_append _ _ labels [label]
      have watches := inductionHypothesis
        (fun event tooSlow member => undone event tooSlow (List.mem_append_left _ member))
      rw [next]
      cases watches with
      | apart idle ordered =>
          exact watches_of_idle (viewing_sound labels) rfl idle ordered label
      | connected split asked earlier read received shown serves =>
          refine watches_of_connected split asked earlier read received shown serves ?_
          intro event tooSlow publishes
          exact undone event tooSlow (publishes ▸ List.mem_append_right _ List.mem_cons_self)

/-- Over any number of connections and however their responses arrive, the
dashboard shows snapshots that were published, each once and in order.  While it
is attached and has read all that was written, it has shown everything that was
published since it asked for this stream. -/
theorem dashboard_shows_in_order (maxSubscribers : Nat) (codec : JsonCodec ν)
    (labels : List (ViewerLabel ν))
    (undone : forall event tooSlow, .server (.publish event tooSlow) ∈ labels ->
      codec.Undoes event.toJson) :
    (viewingAfter maxSubscribers codec labels).viewer.shown.Sublist (publishedSnapshots labels) ∧
      forall id bytes reader,
        (viewingAfter maxSubscribers codec labels).viewer.phase = .reading id bytes reader ->
        id ∈ (viewingAfter maxSubscribers codec labels).stream.subscribers ->
        bytes = ((viewingAfter maxSubscribers codec labels).bytesOf id).length ->
        Exists fun before : List (ViewerLabel ν) => Exists fun during : List (ViewerLabel ν) =>
          labels = before ++ .connect :: during ∧
            (viewingAfter maxSubscribers codec before).stream.nextId = id ∧
            (viewingAfter maxSubscribers codec labels).viewer.shown =
              (viewingAfter maxSubscribers codec before).viewer.shown ++
                publishedSnapshots during := by
  have watches := watches_of_run maxSubscribers codec labels undone
  exact ⟨watches.ordered, fun _ _ _ reading attached all => watches.whole reading attached all⟩

/-- A snapshot of a queue whose name is not ASCII. -/
def cafeSnapshot : ServerEvent Nat :=
  .snapshot [⟨word "café", [(word "available", 3)], 9⟩] (word "2026-01-01T00:00:02.000Z")

@[irreducible]
def cafeText : List Char :=
  ("\x7b\"type\":\"snapshot\",\"at\":\"2026-01-01T00:00:02.000Z\",\"queues\":[" ++
    "\x7b\"queue\":\"café\",\"counts\":\x7b\"available\":3\x7d," ++
    "\"oldestWaitSeconds\":9\x7d]\x7d").toList

/-- `at` of a snapshot. -/
def snapshotTime : Json Nat -> Option Text
  | .object [_, (_, .string atTime), _] => some atTime
  | _ => none

/-- `JSON.stringify` and `JSON.parse` of the two snapshots. -/
def snapshotCodec : JsonCodec Nat where
  stringify value :=
    if snapshotTime value = snapshotTime cafeSnapshot.toJson then cafeText else mailText
  parse text :=
    if text = cafeText then some cafeSnapshot.toJson
    else if text = mailText then some mailSnapshot.toJson
    else none

/-- A connection on which a snapshot is read, and which fails. -/
def brokenConnection : List (ViewerLabel Nat) :=
  [.connect, .opened, .server (.publish mailSnapshot (fun _ => false)), .read 1000]

/-- A snapshot that nobody sees, and another connection, on which the bytes are
cut within the accented letter. -/
def mailViewer : List (ViewerLabel Nat) :=
  brokenConnection ++ [.fails, .server (.closed 1),
    .server (.publish mailSnapshot (fun _ => false)), .connect, .opened,
    .server (.publish cafeSnapshot (fun _ => false)), .read 110, .read 1000]

theorem snapshots_undone {event : ServerEvent Nat}
    (isOne : event = mailSnapshot ∨ event = cafeSnapshot) : snapshotCodec.Undoes event.toJson := by
  have texts : mailText ≠ cafeText := by
    unfold mailText cafeText
    decide +kernel
  have times : snapshotTime mailSnapshot.toJson ≠ snapshotTime cafeSnapshot.toJson := by
    decide +kernel
  rcases isOne with rfl | rfl
  · have text : snapshotCodec.stringify mailSnapshot.toJson = mailText := by
      simp only [snapshotCodec, if_neg times]
    refine ⟨?_, ?_⟩ <;> rw [text]
    · exact (if_neg texts).trans (if_pos rfl)
    · exact mail_undone.oneLine
  · have text : snapshotCodec.stringify cafeSnapshot.toJson = cafeText := by
      simp only [snapshotCodec, if_true]
    refine ⟨?_, ?_⟩ <;> rw [text]
    · exact if_pos rfl
    · unfold cafeText
      decide +kernel

theorem mailViewer_undone {event : ServerEvent Nat} {tooSlow : Nat -> Bool}
    (member : .server (.publish event tooSlow) ∈ mailViewer) :
    snapshotCodec.Undoes event.toJson := by
  apply snapshots_undone
  simp only [mailViewer, brokenConnection, List.cons_append, List.nil_append, List.mem_cons,
    reduceCtorEq, ViewerLabel.server.injEq, StreamLabel.publish.injEq, List.not_mem_nil, false_or,
    or_false] at member
  rcases member with ⟨same, -⟩ | ⟨same, -⟩ | ⟨same, -⟩
  · exact Or.inl same
  · exact Or.inl same
  · exact Or.inr same

theorem length_of_read {bytes : List UInt8} {count : Nat} (enough : bytes.length ≤ count) :
    0 + ((bytes.drop 0).take count).length = bytes.length := by
  rw [List.drop_zero, Nat.zero_add, List.take_of_length_le enough]

/-- What is read in two parts is all of it. -/
theorem length_of_parts {bytes : List UInt8} {first second : Nat}
    (enough : bytes.length ≤ first + second) :
    0 + ((bytes.drop 0).take first).length +
      ((bytes.drop (0 + ((bytes.drop 0).take first).length)).take second).length =
      bytes.length := by
  simp only [List.drop_zero, Nat.zero_add, List.length_take, List.length_drop]
  omega

theorem mail_is_shown : (viewingAfter 100 snapshotCodec mailViewer).viewer.shown =
    [mailSnapshot.toJson, cafeSnapshot.toJson] := by
  have first : (viewingAfter 100 snapshotCodec brokenConnection).viewer.shown =
      [mailSnapshot.toJson] := by
    have all := @length_of_read ((viewingAfter 100 snapshotCodec brokenConnection).bytesOf 1) 1000
      (by decide +kernel)
    rcases (dashboard_shows_in_order 100 snapshotCodec brokenConnection
      (fun _ _ member => mailViewer_undone (List.mem_append_left _ member))).2 1 _ _ rfl
      List.mem_cons_self all with ⟨before, during, split, -, shown⟩
    simp only [brokenConnection, List.cons_eq_append_iff, List.cons.injEq, true_and, reduceCtorEq,
      false_and, and_false, List.nil_eq, List.append_eq_nil_iff, exists_const, or_self, or_false]
      at split
    rcases split with ⟨rfl, rfl⟩
    exact shown
  have attached : 2 ∈ (viewingAfter 100 snapshotCodec mailViewer).stream.subscribers :=
    List.mem_cons_self
  have all := @length_of_parts ((viewingAfter 100 snapshotCodec mailViewer).bytesOf 2) 110 1000
    (by decide +kernel)
  rcases (dashboard_shows_in_order 100 snapshotCodec mailViewer
    (fun _ _ member => mailViewer_undone member)).2 2 _ _ rfl attached all with
    ⟨before, during, split, asked, shown⟩
  simp only [mailViewer, brokenConnection, List.cons_append, List.nil_append,
    List.cons_eq_append_iff, List.cons.injEq, true_and, reduceCtorEq, false_and, and_false,
    List.nil_eq, List.append_eq_nil_iff, exists_const, or_self, or_false, ↓existsAndEq, false_or]
    at split
  rcases split with ⟨rfl, -⟩ | ⟨rfl, rfl⟩
  · -- The first connection is another subscriber.
    cases asked
  · rw [shown]
    exact congrArg (· ++ [cafeSnapshot.toJson]) first

end PgJobQ
