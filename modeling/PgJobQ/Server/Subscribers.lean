import Mathlib.Data.List.Induction
import Mathlib.Data.List.Nodup
import PgJobQ.Server.EventStream

/-!
# What a subscriber sees

The stream has a bounded number of subscribers, each attached once, and keeps
its timer while it has any.  A subscriber is written everything that is
published from the moment it is attached until it is detached, in order, and
nothing else; and nothing is written to a response that has been ended.
-/

namespace PgJobQ

open Runs

variable {ν : Type}

namespace StreamLabel

/-- The label detaches the subscriber, if it is attached. -/
def detaches (id : Nat) : StreamLabel ν -> Bool
  | subscribe => false
  | publish _ tooSlow => tooSlow id
  | interval => false
  | closed other => decide (id = other)
  | close => true

/-- The label ends the responses of those it detaches: a request that closes
has no response to end. -/
def ends : StreamLabel ν -> Bool
  | closed _ => false
  | _ => true

/-- What the label writes to every subscriber. -/
def broadcast : StreamLabel ν -> Option (Write ν)
  | publish event _ => some (.event event)
  | interval => some .keepalive
  | _ => none

end StreamLabel

namespace EventStream

/-- The stream admits the subscriber next. -/
structure Admits (maxSubscribers id : Nat) (stream : EventStream) : Prop where
  room : stream.subscribers.length < maxSubscribers
  next : id = stream.nextId

/-- The stream is within its bound, and knows whom it serves. -/
structure Sound (maxSubscribers : Nat) (stream : EventStream) : Prop where
  bounded : stream.subscribers.length ≤ maxSubscribers
  distinct : stream.subscribers.Nodup
  started : 0 < stream.nextId
  known : forall id, id ∈ stream.subscribers -> 0 < id ∧ id < stream.nextId
  timer : stream.subscribers ≠ [] -> stream.heartbeat = true
  opened : forall id, id ∈ stream.subscribers -> (stream.responses id).ended = false
  unused : forall id, stream.nextId ≤ id -> stream.responses id = ⟨[], false⟩

variable {maxSubscribers : Nat} {codec : JsonCodec ν} {id : Nat} {stream : EventStream}

/-! ## One step -/

/-- What a label does to somebody who is attached. -/
theorem step_of_attached (sound : stream.Sound maxSubscribers) (attached : id ∈ stream.subscribers)
    (label : StreamLabel ν) :
    (id ∈ (stream.step maxSubscribers codec label).subscribers <-> label.detaches id = false) ∧
      (stream.step maxSubscribers codec label).responses id =
        ⟨(stream.responses id).written ++ label.broadcast.toList.flatMap (Write.text codec),
          label.detaches id && label.ends⟩ := by
  have opened := sound.opened id attached
  have known := sound.known id attached
  generalize reached : stream.responses id = response at opened ⊢
  rcases response with ⟨written, ended⟩
  cases opened
  cases label with
  | subscribe =>
      simp only [step, subscribe]
      split
      · exact ⟨⟨fun _ => rfl, fun _ => attached⟩, by simp [reached, StreamLabel.broadcast,
          StreamLabel.detaches]⟩
      · refine ⟨⟨fun _ => rfl, fun _ => List.mem_append_left _ attached⟩, ?_⟩
        simp [Nat.ne_of_lt known.2, reached, StreamLabel.broadcast, StreamLabel.detaches]
  | publish event tooSlow =>
      simp only [step, publish, each_responses, if_pos attached, reached, StreamLabel.broadcast,
        StreamLabel.detaches, StreamLabel.ends]
      refine ⟨by simp [attached], ?_⟩
      cases tooSlow id <;> simp [StreamResponse.write, StreamResponse.endResponse]
  | interval =>
      simp only [step, interval, sound.timer (List.ne_nil_of_mem attached)]
      rw [if_neg Bool.noConfusion, if_neg (List.ne_nil_of_mem attached), each_responses,
        if_pos attached, reached]
      exact ⟨⟨fun _ => rfl, fun _ => attached⟩, by simp [StreamResponse.write,
        StreamLabel.broadcast, StreamLabel.detaches]⟩
  | closed other =>
      simp only [step, closed, reached, StreamLabel.broadcast, StreamLabel.detaches,
        StreamLabel.ends]
      exact ⟨by simp [attached], by simp⟩
  | close =>
      simp only [step, close, each_responses, if_pos attached, reached, StreamLabel.broadcast,
        StreamLabel.detaches, StreamLabel.ends]
      exact ⟨by simp, by simp [StreamResponse.endResponse]⟩

/-- A label leaves everybody else alone, whom it does not attach. -/
theorem step_of_absent (absent : id ∉ stream.subscribers) (label : StreamLabel ν)
    (unadmitted : label = .subscribe -> Not (stream.Admits maxSubscribers id)) :
    id ∉ (stream.step maxSubscribers codec label).subscribers ∧
      (stream.step maxSubscribers codec label).responses id = stream.responses id := by
  cases label with
  | subscribe =>
      simp only [step, subscribe]
      split
      · exact ⟨absent, rfl⟩
      · rename_i room
        have other : id ≠ stream.nextId :=
          fun next => unadmitted rfl ⟨Nat.not_le.mp room, next⟩
        refine ⟨?_, if_neg other⟩
        intro member
        rcases List.mem_append.mp member with earlier | new
        · exact absent earlier
        · exact other (List.mem_singleton.mp new)
  | publish event tooSlow =>
      exact ⟨fun member => absent (List.mem_of_mem_filter member), if_neg absent⟩
  | interval =>
      refine ⟨fun member => absent (interval_subscribers ▸ member), ?_⟩
      simp only [step, interval]
      split
      · rfl
      · split
        · rfl
        · exact if_neg absent
  | closed other => exact ⟨fun member => absent (List.mem_of_mem_filter member), rfl⟩
  | close => exact ⟨List.not_mem_nil, if_neg absent⟩

/-- A subscriber that the stream admits is written the first frame. -/
theorem step_of_admitted (admitted : stream.Admits maxSubscribers id) :
    (stream.step maxSubscribers codec .subscribe).subscribers = stream.subscribers ++ [id] ∧
      (stream.step maxSubscribers codec .subscribe).nextId = id + 1 ∧
        (stream.step maxSubscribers codec .subscribe).responses id =
          (stream.responses id).write (Write.retry.text codec) := by
  rw [admitted.next, step, subscribe, if_neg (Nat.not_le.mpr admitted.room)]
  exact ⟨rfl, rfl, if_pos rfl⟩

theorem nextId_step (label : StreamLabel ν) :
    stream.nextId ≤ (stream.step maxSubscribers codec label).nextId := by
  rcases step_attaches maxSubscribers codec 0 stream label with
    ⟨_, _, nextId, _⟩ | ⟨nextId, _, _⟩
  · exact Nat.le_of_lt (Nat.lt_of_lt_of_eq (Nat.lt_succ_self _) nextId.symm)
  · exact Nat.le_of_eq nextId.symm

/-- The ids that a label leaves attached were attached before, unless it admits
a new one. -/
theorem subscribers_step (label : StreamLabel ν) :
    (stream.step maxSubscribers codec label).subscribers.Sublist stream.subscribers ∨
      (label = .subscribe ∧ stream.Admits maxSubscribers stream.nextId) := by
  cases label with
  | subscribe =>
      by_cases full : maxSubscribers ≤ stream.subscribers.length
      · left
        rw [step, subscribe, if_pos full]
      · exact Or.inr ⟨rfl, Nat.not_le.mp full, rfl⟩
  | publish event tooSlow => exact Or.inl List.filter_sublist
  | interval =>
      left
      rw [step, interval_subscribers]
  | closed other => exact Or.inl List.filter_sublist
  | close => exact Or.inl (List.nil_sublist _)

theorem heartbeat_step (sound : stream.Sound maxSubscribers) (label : StreamLabel ν)
    (some : (stream.step maxSubscribers codec label).subscribers ≠ []) :
    (stream.step maxSubscribers codec label).heartbeat = true := by
  cases label with
  | subscribe =>
      simp only [step, subscribe] at some ⊢
      split
      · rename_i full
        rw [if_pos full] at some
        exact sound.timer some
      · rfl
  | publish event tooSlow =>
      refine sound.timer (fun none => some ?_)
      simp only [step, publish, none, List.filter_nil]
  | interval =>
      rw [step, interval_subscribers] at some
      simp only [step, interval, sound.timer some]
      rw [if_neg Bool.noConfusion, if_neg some]
      exact sound.timer some
  | closed other =>
      refine sound.timer (fun none => some ?_)
      simp only [step, closed, none, List.filter_nil]
  | close => exact absurd rfl some

theorem Sound.new : Sound maxSubscribers EventStream.new where
  bounded := Nat.zero_le _
  distinct := List.nodup_nil
  started := Nat.one_pos
  known := fun _ member => absurd member List.not_mem_nil
  timer := fun some => absurd rfl some
  opened := fun _ member => absurd member List.not_mem_nil
  unused := fun _ _ => rfl

theorem Sound.step (sound : stream.Sound maxSubscribers) (label : StreamLabel ν) :
    (stream.step maxSubscribers codec label).Sound maxSubscribers := by
  have fresh : stream.nextId ∉ stream.subscribers :=
    fun member => absurd (sound.known _ member).2 (Nat.lt_irrefl _)
  have unused : forall id, (stream.step maxSubscribers codec label).nextId ≤ id ->
      (stream.step maxSubscribers codec label).responses id = ⟨[], false⟩ := by
    intro id later
    have above := Nat.le_trans (nextId_step label) later
    have absent : id ∉ stream.subscribers :=
      fun member => absurd (sound.known _ member).2 (Nat.not_lt.mpr above)
    rw [(step_of_absent absent label _).2]
    · exact sound.unused id above
    · rintro rfl admitted
      rw [(@step_of_admitted ν maxSubscribers codec id stream admitted).2.1] at later
      exact absurd later (Nat.not_succ_le_self id)
  rcases @subscribers_step ν maxSubscribers codec stream label with remain | ⟨rfl, admitted⟩
  · have before : forall id, id ∈ (stream.step maxSubscribers codec label).subscribers ->
        id ∈ stream.subscribers := fun id member => remain.subset member
    exact {
      bounded := Nat.le_trans remain.length_le sound.bounded
      distinct := sound.distinct.sublist remain
      started := Nat.lt_of_lt_of_le sound.started (nextId_step label)
      known := fun id member => ⟨(sound.known id (before id member)).1,
        Nat.lt_of_lt_of_le (sound.known id (before id member)).2 (nextId_step label)⟩
      timer := heartbeat_step sound label
      opened := by
        intro id member
        have done := @step_of_attached ν maxSubscribers codec id stream sound (before id member) label
        rw [done.2, done.1.mp member]
        rfl
      unused := unused }
  · have done := @step_of_admitted ν maxSubscribers codec stream.nextId stream admitted
    refine {
      bounded := ?_
      distinct := ?_
      started := Nat.lt_of_lt_of_le sound.started (nextId_step .subscribe)
      known := ?_
      timer := heartbeat_step sound .subscribe
      opened := ?_
      unused := unused }
    · rw [done.1, List.length_append]
      exact admitted.room
    · rw [done.1]
      apply List.Nodup.append sound.distinct (List.nodup_singleton _)
      exact List.disjoint_singleton.mpr fresh
    · intro id member
      rw [done.1] at member
      rw [done.2.1]
      rcases List.mem_append.mp member with earlier | new
      · exact ⟨(sound.known id earlier).1, Nat.lt_succ_of_lt (sound.known id earlier).2⟩
      · rw [List.mem_singleton.mp new]
        exact ⟨sound.started, Nat.lt_succ_self _⟩
    · intro id member
      rw [done.1] at member
      rcases List.mem_append.mp member with earlier | new
      · rw [(@step_of_attached ν maxSubscribers codec id stream sound earlier .subscribe).2]
        rfl
      · rw [List.mem_singleton.mp new, done.2.2, sound.unused _ (Nat.le_refl _)]
        rfl

end EventStream

/-! ## Runs -/

section Runs

variable (maxSubscribers : Nat) (codec : JsonCodec ν)

/-- The stream after the labels. -/
abbrev streamAfter (labels : List (StreamLabel ν)) : EventStream :=
  run (EventStream.step maxSubscribers codec) EventStream.new labels

/-- The part that a response plays in a run: it was never used; or a subscriber
was attached to it, has been written the first frame and everything published
since, and is attached still; or was detached, and has been written everything
until then, the label that detached it included. -/
inductive Attended (id : Nat) (labels : List (StreamLabel ν)) : Prop where
  | never (outside : id = 0 ∨ (streamAfter maxSubscribers codec labels).nextId ≤ id)
      (unused : (streamAfter maxSubscribers codec labels).responses id = ⟨[], false⟩)
  | attached {before during} (split : labels = before ++ .subscribe :: during)
      (admitted : (streamAfter maxSubscribers codec before).Admits maxSubscribers id)
      (stays : forall label, label ∈ during -> label.detaches id = false)
      (present : id ∈ (streamAfter maxSubscribers codec labels).subscribers)
      (response : (streamAfter maxSubscribers codec labels).responses id =
        ⟨(.retry :: during.filterMap StreamLabel.broadcast).flatMap (Write.text codec), false⟩)
  | detached {before during last after}
      (split : labels = before ++ .subscribe :: (during ++ last :: after))
      (admitted : (streamAfter maxSubscribers codec before).Admits maxSubscribers id)
      (stays : forall label, label ∈ during -> label.detaches id = false)
      (leaves : last.detaches id = true)
      (absent : id ∉ (streamAfter maxSubscribers codec labels).subscribers)
      (response : (streamAfter maxSubscribers codec labels).responses id =
        ⟨(.retry :: (during ++ [last]).filterMap StreamLabel.broadcast).flatMap (Write.text codec),
          last.ends⟩)

theorem streamAfter_concat (labels : List (StreamLabel ν)) (label : StreamLabel ν) :
    streamAfter maxSubscribers codec (labels ++ [label]) =
      (streamAfter maxSubscribers codec labels).step maxSubscribers codec label :=
  run_append _ _ labels [label]

theorem streamAfter_sound (labels : List (StreamLabel ν)) :
    (streamAfter maxSubscribers codec labels).Sound maxSubscribers :=
  run_invariant (fun _ label sound => sound.step label) EventStream.Sound.new labels

theorem nextId_streamAfter_append (before after : List (StreamLabel ν)) :
    (streamAfter maxSubscribers codec before).nextId ≤
      (streamAfter maxSubscribers codec (before ++ after)).nextId := by
  induction after using List.reverseRecOn with
  | nil => exact Nat.le_of_eq (congrArg
      (fun labels => (streamAfter maxSubscribers codec labels).nextId) (List.append_nil before).symm)
  | append_singleton after label inductionHypothesis =>
      rw [← List.append_assoc, streamAfter_concat]
      exact Nat.le_trans inductionHypothesis (EventStream.nextId_step label)

variable {maxSubscribers codec}

/-- Who was admitted once is not admitted again. -/
theorem not_admitted_again {id : Nat} {before rest : List (StreamLabel ν)}
    (admitted : (streamAfter maxSubscribers codec before).Admits maxSubscribers id) :
    Not ((streamAfter maxSubscribers codec (before ++ .subscribe :: rest)).Admits maxSubscribers
      id) := by
  intro again
  have later := nextId_streamAfter_append maxSubscribers codec (before ++ [.subscribe]) rest
  rw [List.append_assoc, List.singleton_append, ← again.next, streamAfter_concat,
    (EventStream.step_of_admitted admitted).2.1] at later
  exact Nat.not_succ_le_self id later

/-- One more label. -/
theorem Attended.concat {id : Nat} {labels : List (StreamLabel ν)}
    (attended : Attended maxSubscribers codec id labels) (label : StreamLabel ν) :
    Attended maxSubscribers codec id (labels ++ [label]) := by
  have sound := streamAfter_sound maxSubscribers codec labels
  have next := streamAfter_concat maxSubscribers codec labels label
  cases attended with
  | never outside unused =>
      have absent : id ∉ (streamAfter maxSubscribers codec labels).subscribers := by
        intro member
        have known := sound.known id member
        rcases outside with zero | later
        · exact absurd zero (Nat.ne_of_gt known.1)
        · exact absurd known.2 (Nat.not_lt.mpr later)
      by_cases admits : label = .subscribe ∧
          (streamAfter maxSubscribers codec labels).Admits maxSubscribers id
      · rcases admits with ⟨rfl, admitted⟩
        have done := @EventStream.step_of_admitted ν maxSubscribers codec id _ admitted
        refine @Attended.attached _ _ _ _ _ labels [] rfl admitted
          (fun _ member => absurd member List.not_mem_nil) ?_ ?_
        · rw [next, done.1]
          exact List.mem_append_right _ List.mem_cons_self
        · rw [next, done.2.2, unused]
          simp [StreamResponse.write]
      · have done := @EventStream.step_of_absent ν maxSubscribers codec id _ absent label
          (fun subscribes admitted => admits ⟨subscribes, admitted⟩)
        refine .never ?_ ?_
        · rcases outside with zero | later
          · exact Or.inl zero
          · right
            rw [next]
            rcases EventStream.step_attaches maxSubscribers codec id
              (streamAfter maxSubscribers codec labels) label with
              ⟨subscribes, room, nextId, _⟩ | ⟨nextId, _, _⟩
            · rw [nextId]
              apply Nat.lt_of_le_of_ne later
              exact fun same => admits ⟨subscribes, room, same.symm⟩
            · rw [nextId]
              exact later
        · rw [next, done.2]
          exact unused
  | @attached before during split admitted stays present response =>
      have done := @EventStream.step_of_attached ν maxSubscribers codec id _ sound present label
      have longer : labels ++ [label] = before ++ .subscribe :: (during ++ [label]) := by
        rw [split]
        simp
      cases leaves : label.detaches id with
      | false =>
          refine .attached longer admitted ?_ ?_ ?_
          · intro other member
            rcases List.mem_append.mp member with earlier | new
            · exact stays other earlier
            · exact List.mem_singleton.mp new ▸ leaves
          · rw [next]
            exact done.1.mpr leaves
          · rw [next, done.2, response, leaves, List.filterMap_append]
            cases label <;> simp [StreamLabel.broadcast]
      | true =>
          refine .detached longer admitted stays leaves ?_ ?_
          · rw [next]
            intro member
            exact Bool.noConfusion (leaves.symm.trans (done.1.mp member))
          · rw [next, done.2, response, leaves, List.filterMap_append]
            cases label <;> simp [StreamLabel.broadcast]
  | @detached before during last after split admitted stays leaves absent response =>
      have unadmitted : label = .subscribe -> Not ((streamAfter maxSubscribers codec labels).Admits
          maxSubscribers id) := by
        intro _
        rw [split]
        exact not_admitted_again admitted
      have done := @EventStream.step_of_absent ν maxSubscribers codec id _ absent label unadmitted
      refine @Attended.detached _ _ _ _ _ before during last (after ++ [label]) ?_ admitted stays
        leaves ?_ ?_
      · rw [split]
        simp
      · rw [next]
        exact done.1
      · rw [next, done.2, response]

end Runs

/-- Over every run, the stream keeps within its bound and its timer runs while
anybody is attached, and each response holds the first frame and then exactly
what was published while its subscriber was attached, in order. -/
theorem subscribers_see_what_is_published (maxSubscribers : Nat) (codec : JsonCodec ν)
    (labels : List (StreamLabel ν)) :
    (streamAfter maxSubscribers codec labels).Sound maxSubscribers ∧
      forall id, Attended maxSubscribers codec id labels := by
  refine ⟨streamAfter_sound maxSubscribers codec labels, fun id => ?_⟩
  induction labels using List.reverseRecOn with
  | nil =>
      refine .never ?_ rfl
      rcases Nat.eq_zero_or_pos id with zero | positive
      · exact Or.inl zero
      · exact Or.inr positive
  | append_singleton labels label inductionHypothesis => exact inductionHypothesis.concat label

end PgJobQ
