import PgJobQ.Library.Runs
import PgJobQ.Server.Auth

/-!
# API keys over server lifetimes

The server is started again and again, each time with a bootstrap key of its
own, over one table of keys.  The bootstrap key is also the salt of that
lifetime.  So a change of it leaves every key in the table and lets none of them
in any more, and a bootstrap key without the mark of a key is registered and
never recognised.

`live_keys_authenticate_iff` says that nothing else goes wrong.
-/

namespace PgJobQ

open Runs UniqueRows

variable {Hash : Type} [DecidableEq Hash]

/-- The table, the salt of the running server, if there is one, and the time. -/
structure KeySystem (Hash : Type) where
  table : ApiKeyTable Hash
  salt : Option String
  clock : Int

/-- A key that has been handed out or configured. -/
structure Registration where
  key : String
  salt : String
  record : ApiKeyRecord
  expiresAt : Option Int
  deriving DecidableEq, Repr

inductive KeyEvent where
  | registered (registration : Registration)
  | revoked (id : Nat)
  deriving DecidableEq, Repr

inductive KeyLabel where
  | start (apiBootstrapKey : String)
  | create (name : String) (scopes : List Scope) (queues : Option (List String))
      (expiresAt : Option Int) (random : String)
  | revoke (id : Nat)
  | wait (milliseconds : Nat)
  deriving DecidableEq, Repr

namespace KeySystem

/-- A start replaces the running server.  Without a server there is nobody to
create or revoke a key. -/
def step (sha256 : String -> Hash) (system : KeySystem Hash) : KeyLabel -> KeySystem Hash
  | .start key =>
      if acceptsBootstrapKey key then
        { system with
          table := (Authenticator.ensureBootstrapKey sha256 key key system.table).1
          salt := some key }
      else system
  | .create name scopes queues expiresAt random =>
      match system.salt with
      | none => system
      | some salt =>
          { system with table :=
              (Authenticator.create sha256 salt name scopes queues expiresAt random system.table).1 }
  | .revoke id =>
      match system.salt with
      | none => system
      | some _ => { system with table := (system.table.revoke id system.clock).1 }
  | .wait milliseconds => { system with clock := system.clock + milliseconds }

def event (sha256 : String -> Hash) (system : KeySystem Hash) : KeyLabel -> Option KeyEvent
  | .start key =>
      if acceptsBootstrapKey key then
        (Authenticator.ensureBootstrapKey sha256 key key system.table).2.map
          (fun id => .registered ⟨key, key, ⟨id, "bootstrap", allScopes, none⟩, none⟩)
      else none
  | .create name scopes queues expiresAt random =>
      match system.salt with
      | none => none
      | some salt =>
          (Authenticator.create sha256 salt name scopes queues expiresAt random system.table).2.map
            (fun created => .registered ⟨created.2, salt, ⟨created.1, name, scopes, queues⟩, expiresAt⟩)
  | .revoke id =>
      match system.salt with
      | none => none
      | some _ => if (system.table.revoke id system.clock).2 then some (.revoked id) else none
  | .wait _ => none

/-- Before the first start. -/
def initial (clock : Int) : KeySystem Hash := ⟨.empty, none, clock⟩

end KeySystem

abbrev KeyRun (Hash : Type) := Recorded (KeySystem Hash) KeyEvent

namespace KeyRun

def step (sha256 : String -> Hash) : KeyRun Hash -> KeyLabel -> KeyRun Hash :=
  recordStep (KeySystem.step sha256) (KeySystem.event sha256)

def initial (clock : Int) : KeyRun Hash := ⟨.initial clock, []⟩

end KeyRun

/-- The key has been registered, and has been neither revoked nor expired. -/
structure Registration.Live (history : List KeyEvent) (now : Int) (registration : Registration) :
    Prop where
  registered : .registered registration ∈ history
  unrevoked : Not (.revoked registration.record.id ∈ history)
  unexpired : forall expiresAt, registration.expiresAt = some expiresAt -> now < expiresAt

/-- The running server recognises the live keys, and only those. -/
def RecognisesLive (sha256 : String -> Hash) (run : KeyRun Hash) : Prop :=
  forall salt, run.state.salt = some salt -> forall now, run.state.clock ≤ now ->
    forall key record,
      Authenticator.authenticate sha256 salt now run.state.table key = some record <->
        Exists fun registration : Registration => registration.Live run.history now ∧
          registration.key = key ∧ registration.record = record

/-- The condition.  A start finds no live key of another lifetime's salt, and its
own key bears the mark or is in the table already. -/
def KeepsSalt (sha256 : String -> Hash) (run : KeyRun Hash) : KeyLabel -> Prop
  | .start key => acceptsBootstrapKey key = true ->
      (forall registration : Registration, registration.Live run.history run.state.clock ->
        registration.salt = key) ∧
      (marked key = true ∨ (run.state.table.byHash (hashKey sha256 key key)).isSome = true)
  | _ => True

/-! ## What a statement does to the table -/

section

omit [DecidableEq Hash]

theorem ApiKeyRow.revoke_of_ne {id : Nat} {now : Int} {row : ApiKeyRow Hash} (apart : row.id ≠ id) :
    row.revoke id now = row := by
  rw [ApiKeyRow.revoke, beq_false_of_ne apart]
  rfl

theorem ApiKeyRow.revoke_of_revoked {id : Nat} {now : Int} {row : ApiKeyRow Hash}
    (revoked : row.revokedAt ≠ none) : row.revoke id now = row := by
  have isSome : row.revokedAt.isNone = false :=
    Bool.eq_false_iff.mpr (fun isNone => revoked (Option.isNone_iff_eq_none.mp isNone))
  rw [ApiKeyRow.revoke, isSome, Bool.and_false]
  rfl

theorem ApiKeyRow.revoke_of_hit {id : Nat} {now : Int} {row : ApiKeyRow Hash} (isRow : row.id = id)
    (unrevoked : row.revokedAt = none) : row.revoke id now = { row with revokedAt := some now } := by
  rw [ApiKeyRow.revoke, isRow, unrevoked, beq_self_eq_true]
  rfl

end

namespace ApiKeyTable

/-- An insert drops its row on a conflict, or appends it. -/
theorem insert_cases (name : String) (keyHash : Hash) (scopes : List Scope)
    (queues : Option (List String)) (expiresAt : Option Int) (table : ApiKeyTable Hash) :
    ((table.insert name keyHash scopes queues expiresAt).2 = none ∧
        (table.insert name keyHash scopes queues expiresAt).1.rows = table.rows ∧
        (table.byHash keyHash).isSome = true) ∨
      ((table.insert name keyHash scopes queues expiresAt).2 = some table.nextId ∧
        (table.insert name keyHash scopes queues expiresAt).1.rows =
          table.rows ++ [⟨table.nextId, name, keyHash, scopes, queues, expiresAt, none⟩] ∧
        (table.byHash keyHash).isSome = false) := by
  unfold insert
  split
  · rename_i found taken
    exact Or.inl ⟨rfl, rfl, by rw [taken]; rfl⟩
  · rename_i free
    exact Or.inr ⟨rfl, rfl, by rw [free]; rfl⟩

omit [DecidableEq Hash] in
theorem revoke_hit_iff {table : ApiKeyTable Hash} {id : Nat} {now : Int} :
    (table.revoke id now).2 = true <-> Exists fun row : ApiKeyRow Hash => row ∈ table.rows ∧
      row.id = id ∧ row.revokedAt = none := by
  simp only [revoke, List.any_eq_true, Bool.and_eq_true, beq_iff_eq, Option.isNone_iff_eq_none]

omit [DecidableEq Hash] in
/-- A revocation that hits nothing changes nothing. -/
theorem revoke_rows_of_miss {table : ApiKeyTable Hash} {id : Nat} {now : Int}
    (miss : (table.revoke id now).2 = false) : (table.revoke id now).1.rows = table.rows := by
  have same : forall row, row ∈ table.rows -> row.revoke id now = row := by
    intro row member
    by_cases isRow : row.id = id
    · by_cases unrevoked : row.revokedAt = none
      · rw [revoke_hit_iff.mpr ⟨row, member, isRow, unrevoked⟩] at miss
        cases miss
      · exact ApiKeyRow.revoke_of_revoked unrevoked
    · exact ApiKeyRow.revoke_of_ne isRow
  exact (List.map_congr_left same).trans (List.map_id table.rows)

end ApiKeyTable

/-! ## The table and the history -/

/-- The row is that of the registration. -/
structure Registration.StoredAs (sha256 : String -> Hash) (registration : Registration)
    (row : ApiKeyRow Hash) : Prop where
  keyHash : row.keyHash = hashKey sha256 registration.key registration.salt
  record : row.record = registration.record
  expiresAt : row.expiresAt = registration.expiresAt

omit [DecidableEq Hash] in
theorem Registration.StoredAs.id {sha256 : String -> Hash} {registration : Registration}
    {row : ApiKeyRow Hash} (stored : registration.StoredAs sha256 row) :
    row.id = registration.record.id :=
  congrArg ApiKeyRecord.id stored.record

omit [DecidableEq Hash] in
theorem Registration.StoredAs.revoke {sha256 : String -> Hash} {registration : Registration}
    {row : ApiKeyRow Hash} (stored : registration.StoredAs sha256 row) (id : Nat) (now : Int) :
    registration.StoredAs sha256 (row.revoke id now) := by
  unfold ApiKeyRow.revoke
  split
  · exact ⟨stored.keyHash, stored.record, stored.expiresAt⟩
  · exact stored

theorem Registration.Live.earlier {history : List KeyEvent} {now later : Int}
    {registration : Registration} (live : registration.Live history later) (le : now ≤ later) :
    registration.Live history now where
  registered := live.registered
  unrevoked := live.unrevoked
  unexpired := fun expiresAt isExpiry => Int.lt_of_le_of_lt le (live.unexpired expiresAt isExpiry)

theorem Registration.Live.of_registered {history : List KeyEvent} {now : Int}
    {registration new : Registration} (live : registration.Live (.registered new :: history) now) :
    registration = new ∨ registration.Live history now := by
  rcases List.mem_cons.mp live.registered with same | before
  · exact Or.inl (KeyEvent.registered.inj same)
  · exact Or.inr ⟨before, fun gone => live.unrevoked (List.mem_cons_of_mem _ gone), live.unexpired⟩

/-- A row for each registration and a registration for each row, revoked alike;
and every live key has the mark and the salt of the running server. -/
structure KeyRun.Kept (sha256 : String -> Hash) (run : KeyRun Hash) : Prop where
  row : forall registration, .registered registration ∈ run.history ->
    Exists fun row : ApiKeyRow Hash => row ∈ run.state.table.rows ∧
      registration.StoredAs sha256 row
  registration : forall row, row ∈ run.state.table.rows ->
    Exists fun registration : Registration => .registered registration ∈ run.history ∧
      registration.StoredAs sha256 row
  revoked : forall row, row ∈ run.state.table.rows ->
    (row.revokedAt = none <-> Not (.revoked row.id ∈ run.history))
  revokedRow : forall id, .revoked id ∈ run.history ->
    Exists fun row : ApiKeyRow Hash => row ∈ run.state.table.rows ∧ row.id = id
  salted : forall registration : Registration,
    registration.Live run.history run.state.clock ->
      run.state.salt = some registration.salt ∧ marked registration.key = true

namespace KeyRun

variable {sha256 : String -> Hash}

omit [DecidableEq Hash] in
theorem Kept.initial (sha256 : String -> Hash) (clock : Int) : (initial clock).Kept sha256 where
  row := fun _ member => absurd member List.not_mem_nil
  registration := fun _ member => absurd member List.not_mem_nil
  revoked := fun _ member => absurd member List.not_mem_nil
  revokedRow := fun _ member => absurd member List.not_mem_nil
  salted := fun _ live => absurd live.registered List.not_mem_nil

omit [DecidableEq Hash] in
/-- Nothing happens to the rows. -/
theorem Kept.rest {run : KeyRun Hash} (kept : run.Kept sha256) {table : ApiKeyTable Hash}
    {salt : Option String} {clock : Int} (same : table.rows = run.state.table.rows)
    (salted : forall registration : Registration, registration.Live run.history clock ->
      salt = some registration.salt ∧ marked registration.key = true) :
    Kept sha256 ⟨⟨table, salt, clock⟩, run.history⟩ := by
  refine ⟨?_, ?_, ?_, ?_, salted⟩
  · exact fun registration member => same ▸ kept.row registration member
  · exact fun row member => kept.registration row (same ▸ member)
  · exact fun row member => kept.revoked row (same ▸ member)
  · exact fun id member => same ▸ kept.revokedRow id member

omit [DecidableEq Hash] in
/-- A row is appended, with an id that has just been drawn. -/
theorem Kept.register {run : KeyRun Hash} (kept : run.Kept sha256) {table : ApiKeyTable Hash}
    {salt : Option String} {registration : Registration} {new : ApiKeyRow Hash}
    (appended : table.rows = run.state.table.rows ++ [new])
    (drawn : new.id = run.state.table.nextId) (unrevoked : new.revokedAt = none)
    (stored : registration.StoredAs sha256 new)
    (salted : forall other : Registration,
      other.Live (.registered registration :: run.history) run.state.clock ->
        salt = some other.salt ∧ marked other.key = true) :
    Kept sha256 ⟨⟨table, salt, run.state.clock⟩, .registered registration :: run.history⟩ := by
  refine ⟨?_, ?_, ?_, ?_, salted⟩
  · intro other member
    dsimp only
    rw [appended]
    rcases List.mem_cons.mp member with same | before
    · rw [KeyEvent.registered.inj same]
      exact ⟨new, List.mem_append_right _ (List.mem_singleton_self new), stored⟩
    · rcases kept.row other before with ⟨row, listed, storedRow⟩
      exact ⟨row, List.mem_append_left _ listed, storedRow⟩
  · intro row member
    dsimp only at member
    rw [appended] at member
    rcases List.mem_append.mp member with before | added
    · rcases kept.registration row before with ⟨other, listed, storedRow⟩
      exact ⟨other, List.mem_cons_of_mem _ listed, storedRow⟩
    · rw [List.mem_singleton.mp added]
      exact ⟨registration, List.mem_cons_self, stored⟩
  · intro row member
    dsimp only at member
    rw [appended] at member
    have earlier : KeyEvent.revoked row.id ∈ KeyEvent.registered registration :: run.history <->
        .revoked row.id ∈ run.history := by
      simp only [List.mem_cons, reduceCtorEq, false_or]
    rw [earlier]
    rcases List.mem_append.mp member with before | added
    · exact kept.revoked row before
    · rw [List.mem_singleton.mp added]
      refine ⟨fun _ gone => ?_, fun _ => unrevoked⟩
      rcases kept.revokedRow new.id gone with ⟨old, listed, sameId⟩
      have below := run.state.table.identity old listed
      omega
  · intro id member
    dsimp only
    rw [appended]
    rcases List.mem_cons.mp member with impossible | before
    · cases impossible
    · rcases kept.revokedRow id before with ⟨row, listed, sameId⟩
      exact ⟨row, List.mem_append_left _ listed, sameId⟩

omit [DecidableEq Hash] in
/-- A row is revoked. -/
theorem Kept.revoke {run : KeyRun Hash} (kept : run.Kept sha256) {id : Nat}
    (hit : (run.state.table.revoke id run.state.clock).2 = true) :
    Kept sha256 ⟨{ run.state with table := (run.state.table.revoke id run.state.clock).1 },
      .revoked id :: run.history⟩ := by
  rcases ApiKeyTable.revoke_hit_iff.mp hit with ⟨target, targetListed, targetId, targetUnrevoked⟩
  refine ⟨?_, ?_, ?_, ?_, ?_⟩
  · intro registration member
    rcases List.mem_cons.mp member with impossible | before
    · cases impossible
    · rcases kept.row registration before with ⟨row, listed, stored⟩
      exact ⟨_, List.mem_map_of_mem listed, stored.revoke id run.state.clock⟩
  · intro row member
    rcases List.mem_map.mp member with ⟨source, listed, rfl⟩
    rcases kept.registration source listed with ⟨registration, isRegistered, stored⟩
    exact ⟨registration, List.mem_cons_of_mem _ isRegistered, stored.revoke id run.state.clock⟩
  · intro row member
    rcases List.mem_map.mp member with ⟨source, listed, rfl⟩
    rw [ApiKeyRow.revoke_id]
    by_cases same : source.id = id
    · have isTarget : source = target := run.state.table.primaryKey.eq_of_key listed targetListed
        rfl (congrArg some (targetId.trans same.symm))
      rw [isTarget, ApiKeyRow.revoke_of_hit targetId targetUnrevoked, targetId]
      exact ⟨fun impossible => (nomatch impossible),
        fun absent => absurd List.mem_cons_self absent⟩
    · rw [ApiKeyRow.revoke_of_ne same, kept.revoked source listed]
      simp only [List.mem_cons, KeyEvent.revoked.injEq, same, false_or]
  · intro other member
    rcases List.mem_cons.mp member with isId | before
    · cases isId
      exact ⟨_, List.mem_map_of_mem targetListed, (ApiKeyRow.revoke_id id _ target).trans targetId⟩
    · rcases kept.revokedRow other before with ⟨row, listed, sameId⟩
      exact ⟨_, List.mem_map_of_mem listed, (ApiKeyRow.revoke_id id _ row).trans sameId⟩
  · intro registration live
    apply kept.salted registration
    refine ⟨?_, fun gone => live.unrevoked (List.mem_cons_of_mem _ gone), live.unexpired⟩
    rcases List.mem_cons.mp live.registered with impossible | before
    · cases impossible
    · exact before

/-- Under the invariant the server recognises the live keys. -/
theorem Kept.recognises {run : KeyRun Hash} (kept : run.Kept sha256)
    (collisionFree : Function.Injective sha256) : RecognisesLive sha256 run := by
  intro salt running now later key record
  rw [Authenticator.authenticate_eq_some_iff]
  constructor
  · rintro ⟨_, row, member, sameHash, unrevoked, unexpired, rfl⟩
    rcases kept.registration row member with ⟨registration, isRegistered, stored⟩
    have live : registration.Live run.history now := by
      refine ⟨isRegistered, ?_, ?_⟩
      · rw [← stored.id]
        exact (kept.revoked row member).mp unrevoked
      · rw [← stored.expiresAt]
        exact unexpired
    have sameSalt : salt = registration.salt :=
      Option.some.inj (running.symm.trans (kept.salted registration (live.earlier later)).1)
    have hashes := stored.keyHash.symm.trans sameHash
    rw [sameSalt] at hashes
    exact ⟨registration, live, hashKey_inj collisionFree hashes, stored.record.symm⟩
  · rintro ⟨registration, live, rfl, rfl⟩
    rcases kept.salted registration (live.earlier later) with ⟨isSalt, isMarked⟩
    have sameSalt : salt = registration.salt := Option.some.inj (running.symm.trans isSalt)
    rcases kept.row registration live.registered with ⟨row, member, stored⟩
    refine ⟨isMarked, row, member, ?_, ?_, ?_, stored.record⟩
    · rw [sameSalt]
      exact stored.keyHash
    · apply (kept.revoked row member).mpr
      rw [stored.id]
      exact live.unrevoked
    · rw [stored.expiresAt]
      exact live.unexpired

theorem Kept.create {run : KeyRun Hash} (kept : run.Kept sha256) (name : String)
    (scopes : List Scope) (queues : Option (List String)) (expiresAt : Option Int)
    (random : String) :
    (run.step sha256 (.create name scopes queues expiresAt random)).Kept sha256 := by
  simp only [step, recordStep, KeySystem.step, KeySystem.event]
  cases running : run.state.salt with
  | none => exact kept
  | some salt =>
      dsimp only [Authenticator.create]
      rcases ApiKeyTable.insert_cases name (hashKey sha256 (generateKey random) salt) scopes queues
        expiresAt run.state.table with ⟨dropped, same, _⟩ | ⟨drawn, appended, _⟩
      · rw [dropped]
        exact kept.rest same (running ▸ kept.salted)
      · rw [drawn]
        apply kept.register appended rfl rfl ⟨rfl, rfl, rfl⟩
        intro other live
        rcases live.of_registered with rfl | before
        · exact ⟨rfl, marked_generateKey random⟩
        · exact running ▸ kept.salted other before

theorem Kept.start {run : KeyRun Hash} (kept : run.Kept sha256) {key : String}
    (keeps : KeepsSalt sha256 run (.start key)) : (run.step sha256 (.start key)).Kept sha256 := by
  simp only [step, recordStep, KeySystem.step, KeySystem.event]
  cases accepted : acceptsBootstrapKey key with
  | false => exact kept
  | true =>
      rcases keeps accepted with ⟨sameSalt, mark⟩
      have salted : forall registration : Registration,
          registration.Live run.history run.state.clock ->
            some key = some registration.salt ∧ marked registration.key = true :=
        fun registration live =>
          ⟨congrArg some (sameSalt registration live).symm, (kept.salted registration live).2⟩
      dsimp only [Authenticator.ensureBootstrapKey]
      simp only [if_true]
      rcases ApiKeyTable.insert_cases "bootstrap" (hashKey sha256 key key) allScopes none none
        run.state.table with ⟨dropped, same, _⟩ | ⟨drawn, appended, free⟩
      · rw [dropped]
        exact kept.rest same salted
      · rw [drawn]
        apply kept.register appended rfl rfl ⟨rfl, rfl, rfl⟩
        intro other live
        rcases live.of_registered with rfl | before
        · rw [free] at mark
          exact ⟨rfl, mark.resolve_right Bool.false_ne_true⟩
        · exact salted other before

theorem Kept.step {run : KeyRun Hash} (kept : run.Kept sha256) {label : KeyLabel}
    (keeps : KeepsSalt sha256 run label) : (run.step sha256 label).Kept sha256 := by
  cases label with
  | start key => exact kept.start keeps
  | create name scopes queues expiresAt random => exact kept.create name scopes queues expiresAt random
  | revoke id =>
      cases running : run.state.salt with
      | none =>
          simp only [KeyRun.step, recordStep, KeySystem.step, KeySystem.event, running]
          exact kept
      | some salt =>
          cases hit : (run.state.table.revoke id run.state.clock).2 with
          | false =>
              simp only [KeyRun.step, recordStep, KeySystem.step, KeySystem.event, running, hit]
              exact kept.rest (ApiKeyTable.revoke_rows_of_miss hit) (running ▸ kept.salted)
          | true =>
              simp only [KeyRun.step, recordStep, KeySystem.step, KeySystem.event, running, hit]
              exact running ▸ kept.revoke hit
  | wait milliseconds =>
      apply kept.rest rfl
      intro registration live
      apply kept.salted registration (live.earlier _)
      exact Int.le_add_of_nonneg_right (Int.natCast_nonneg milliseconds)

/-- After a start that meets a live key of another salt, that key is refused. -/
theorem Kept.foreign_refused {run : KeyRun Hash} (kept : run.Kept sha256)
    (collisionFree : Function.Injective sha256) {key : String}
    (accepted : acceptsBootstrapKey key = true) {registration : Registration}
    (live : registration.Live run.history run.state.clock) (foreign : registration.salt ≠ key) :
    Not (RecognisesLive sha256 (run.step sha256 (.start key))) := by
  intro recognises
  rcases kept.row registration live.registered with ⟨old, listed, stored⟩
  simp only [KeyRun.step, recordStep, KeySystem.step, KeySystem.event, accepted, if_true]
    at recognises
  have still : registration.Live
      (((Authenticator.ensureBootstrapKey sha256 key key run.state.table).2.map
        (fun id => KeyEvent.registered ⟨key, key, ⟨id, "bootstrap", allScopes, none⟩, none⟩)).toList ++
          run.history) run.state.clock := by
    refine ⟨List.mem_append_right _ live.registered, fun gone => ?_, live.unexpired⟩
    rcases List.mem_append.mp gone with added | before
    · rcases Option.map_eq_some_iff.mp (Option.mem_toList.mp added) with ⟨id, _, impossible⟩
      cases impossible
    · exact live.unrevoked before
  have resolved := (recognises key rfl run.state.clock (Int.le_refl _) registration.key
    registration.record).mpr ⟨registration, still, rfl, rfl⟩
  rcases Authenticator.authenticate_eq_some_iff.mp resolved with
    ⟨_, row, member, sameHash, _, _, sameRecord⟩
  have present : old ∈ (Authenticator.ensureBootstrapKey sha256 key key run.state.table).1.rows := by
    rcases ApiKeyTable.insert_cases "bootstrap" (hashKey sha256 key key) allScopes none none
      run.state.table with ⟨_, same, _⟩ | ⟨_, appended, _⟩
    · exact same ▸ listed
    · rw [Authenticator.ensureBootstrapKey, appended]
      exact List.mem_append_left _ listed
  have sameId : row.id = old.id := (congrArg ApiKeyRecord.id sameRecord).trans stored.id.symm
  have isOld := (Authenticator.ensureBootstrapKey sha256 key key run.state.table).1.primaryKey.eq_of_key
    member present rfl (congrArg some sameId.symm)
  rw [isOld, stored.keyHash] at sameHash
  exact foreign (hashKey_salt_inj collisionFree sameHash)

/-- A bootstrap key without the mark is registered and refused. -/
theorem unmarked_refused {run : KeyRun Hash} {key : String}
    (accepted : acceptsBootstrapKey key = true) (kept : run.Kept sha256)
    (unmarked : marked key = false)
    (free : (run.state.table.byHash (hashKey sha256 key key)).isSome = false) :
    Not (RecognisesLive sha256 (run.step sha256 (.start key))) := by
  intro recognises
  simp only [KeyRun.step, recordStep, KeySystem.step, KeySystem.event, accepted, if_true]
    at recognises
  rcases ApiKeyTable.insert_cases "bootstrap" (hashKey sha256 key key) allScopes none none
    run.state.table with ⟨_, _, taken⟩ | ⟨drawn, _, _⟩
  · rw [taken] at free
    cases free
  · dsimp only [Authenticator.ensureBootstrapKey] at recognises
    rw [drawn] at recognises
    have resolved := (recognises key rfl run.state.clock (Int.le_refl _) key
      ⟨run.state.table.nextId, "bootstrap", allScopes, none⟩).mpr
      ⟨_, ⟨List.mem_cons_self, fun gone => ?_, fun _ impossible => by cases impossible⟩, rfl, rfl⟩
    · rw [(Authenticator.authenticate_eq_some_iff.mp resolved).1] at unmarked
      cases unmarked
    · rcases List.mem_cons.mp gone with impossible | before
      · cases impossible
      · rcases kept.revokedRow _ before with ⟨row, member, sameId⟩
        have below := run.state.table.identity row member
        dsimp only at sameId
        omega

end KeyRun

/-! ## The theorem -/

/-- Over all server lifetimes, a live key always authenticates, and only a live
one, exactly when no start changes the salt under a live key, and every
bootstrap key that is registered bears the mark. -/
theorem live_keys_authenticate_iff (sha256 : String -> Hash)
    (collisionFree : Function.Injective sha256) (clock : Int) (labels : List KeyLabel) :
    Always (KeyRun.step sha256) (RecognisesLive sha256) (.initial clock) labels <->
      EachStep (KeyRun.step sha256) (KeepsSalt sha256) (.initial clock) labels := by
  apply @always_iff_eachStep _ _ (KeyRun.step sha256) (KeyRun.Kept sha256)
  · exact fun run kept => kept.recognises collisionFree
  · exact fun run label kept keeps => kept.step keeps
  · intro run label kept changes recognises
    cases label with
    | start key =>
        apply changes
        intro accepted
        constructor
        · intro registration live
          by_contra foreign
          exact kept.foreign_refused collisionFree accepted live foreign recognises
        · by_contra neither
          rcases not_or.mp neither with ⟨unmarked, free⟩
          exact KeyRun.unmarked_refused accepted kept (Bool.eq_false_iff.mpr unmarked)
            (Bool.eq_false_iff.mpr free) recognises
    | create name scopes queues expiresAt random => exact changes trivial
    | revoke id => exact changes trivial
    | wait milliseconds => exact changes trivial
  · exact .initial sha256 clock

/-- One lifetime, in which a key is created and the configured key revoked. -/
def oneLifetime : List KeyLabel :=
  [.start "pgjq_0123456789abcdefghijklmnopqrstuvwxyz", .create "mailer" [.enqueue] (some ["mail"])
    (some 60000) "AAAAAAAAAAAAAAAAAAAAAAAAAAAAAAAAAAAAAAAAAAA", .revoke 1, .wait 1000]

theorem oneLifetime_authenticates_iff :
    Always (KeyRun.step (id : String -> String)) (RecognisesLive id) (.initial 0) oneLifetime <->
      EachStep (KeyRun.step (id : String -> String)) (KeepsSalt id) (.initial 0) oneLifetime :=
  live_keys_authenticate_iff id Function.injective_id 0 oneLifetime

/-- A key is created, and then the bootstrap key is replaced by a new one. -/
def rotation : List KeyLabel :=
  [.start "pgjq_0123456789abcdefghijklmnopqrstuvwxyz",
    .create "mailer" [.enqueue] none none "AAAAAAAAAAAAAAAAAAAAAAAAAAAAAAAAAAAAAAAAAAA",
    .start "pgjq_ABCDEFGHIJKLMNOPQRSTUVWXYZ9876543210"]

/-- The created key is live and is refused. -/
theorem rotation_refuses_live_key :
    Not (Always (KeyRun.step (id : String -> String)) (RecognisesLive id) (.initial 0) rotation) := by
  intro always
  have recognises := (always_iff_forall_initial _ _ _ _).mp always rotation List.prefix_rfl
  have resolved := (recognises "pgjq_ABCDEFGHIJKLMNOPQRSTUVWXYZ9876543210" rfl 0 (Int.le_refl 0)
    "pgjq_AAAAAAAAAAAAAAAAAAAAAAAAAAAAAAAAAAAAAAAAAAA"
    ⟨2, "mailer", [.enqueue], none⟩).mpr
    ⟨⟨"pgjq_AAAAAAAAAAAAAAAAAAAAAAAAAAAAAAAAAAAAAAAAAAA",
        "pgjq_0123456789abcdefghijklmnopqrstuvwxyz", ⟨2, "mailer", [.enqueue], none⟩, none⟩,
      ⟨List.mem_of_getElem? (i := 1) rfl, by decide, fun _ impossible => by cases impossible⟩, rfl, rfl⟩
  exact absurd resolved (by decide)

end PgJobQ
