import PgJobQ.Library.UniqueRows
import PgJobQ.Library.Utf16

/-!
# API keys

A key is stored as the hash of the deployment's salt followed by the key, and it
is looked up by that hash.  The salt is the configured bootstrap key.  `sha256`
stands for the digest; its argument is the text of both updates in their order.

Times are those of `Date`, in milliseconds.
-/

namespace PgJobQ

open UniqueRows

inductive Scope where
  | enqueue
  | read
  | admin
  deriving DecidableEq, Repr

def allScopes : List Scope := [.enqueue, .read, .admin]

/-- A key that has been recognised.  Without a list of queues it covers every
queue. -/
structure ApiKeyRecord where
  id : Nat
  name : String
  scopes : List Scope
  queues : Option (List String)
  deriving DecidableEq, Repr

/-- `authorizes`: the key carries the scope and covers the queue, if there is one. -/
def ApiKeyRecord.authorizes (record : ApiKeyRecord) (scope : Scope) (queue : Option String) :
    Bool :=
  record.scopes.contains scope &&
    match queue with
    | none => true
    | some queue =>
        match record.queues with
        | none => true
        | some queues => queues.contains queue

structure ApiKeyRow (Hash : Type) where
  id : Nat
  name : String
  keyHash : Hash
  scopes : List Scope
  queues : Option (List String)
  expiresAt : Option Int
  revokedAt : Option Int

variable {Hash : Type}

def ApiKeyRow.record (row : ApiKeyRow Hash) : ApiKeyRecord where
  id := row.id
  name := row.name
  scopes := row.scopes
  queues := row.queues

/-- What a revocation makes of a row. -/
def ApiKeyRow.revoke (id : Nat) (now : Int) (row : ApiKeyRow Hash) : ApiKeyRow Hash :=
  if row.id == id && row.revokedAt.isNone then { row with revokedAt := some now } else row

theorem ApiKeyRow.revoke_id (id : Nat) (now : Int) (row : ApiKeyRow Hash) :
    (row.revoke id now).id = row.id := by
  unfold ApiKeyRow.revoke
  split
  · rfl
  · rfl

theorem ApiKeyRow.revoke_keyHash (id : Nat) (now : Int) (row : ApiKeyRow Hash) :
    (row.revoke id now).keyHash = row.keyHash := by
  unfold ApiKeyRow.revoke
  split
  · rfl
  · rfl

/-- The table `api_key`, with the sequence behind its id column. -/
structure ApiKeyTable (Hash : Type) where
  rows : List (ApiKeyRow Hash)
  nextId : Nat
  primaryKey : UniqueOn (fun row => some row.id) rows
  uniqueHash : UniqueOn (fun row => some row.keyHash) rows
  identity : forall row, row ∈ rows -> row.id < nextId

def ApiKeyTable.empty : ApiKeyTable Hash where
  rows := []
  nextId := 1
  primaryKey := uniqueOn_nil _
  uniqueHash := uniqueOn_nil _
  identity := fun _ member => absurd member List.not_mem_nil

/-! ## The key -/

/-- `PREFIX`. -/
def keyMark : String := "pgjq_"

/-- `key.startsWith(PREFIX)`. -/
def marked (key : String) : Bool := keyMark.toList.isPrefixOf key.toList

/-- `random` is the base64url text of the random bytes. -/
def generateKey (random : String) : String := keyMark ++ random

theorem marked_generateKey (random : String) : marked (generateKey random) = true := by
  unfold marked generateKey
  rw [String.toList_append, List.isPrefixOf_iff_prefix]
  exact List.prefix_append _ _

def hashKey (sha256 : String -> Hash) (key salt : String) : Hash := sha256 (salt ++ key)

/-- Under one salt, and without collisions, a hash belongs to one key. -/
theorem hashKey_inj {sha256 : String -> Hash} (collisionFree : Function.Injective sha256)
    {key other salt : String} (same : hashKey sha256 key salt = hashKey sha256 other salt) :
    key = other := by
  have texts := congrArg String.toList (collisionFree same)
  rw [String.toList_append, String.toList_append] at texts
  exact String.toList_inj.mp (List.append_cancel_left texts)

/-- One key has different hashes under different salts. -/
theorem hashKey_salt_inj {sha256 : String -> Hash} (collisionFree : Function.Injective sha256)
    {key salt other : String} (same : hashKey sha256 key salt = hashKey sha256 key other) :
    salt = other := by
  have texts := congrArg String.toList (collisionFree same)
  rw [String.toList_append, String.toList_append] at texts
  exact String.toList_inj.mp (List.append_cancel_right texts)

/-! ## The configured key -/

/-- A character the pattern `.` matches. -/
def matchesDot (character : Char) : Bool :=
  decide (character.toNat < 0x10000) && !(['\n', '\r', '\u2028', '\u2029'].contains character)

/-- `change.?me` at the beginning of the text. -/
def changeMe (text : List Char) : Bool :=
  "change".toList.isPrefixOf text &&
    ("me".toList.isPrefixOf (text.drop 6) ||
      match text.drop 6 with
      | [] => false
      | character :: rest => matchesDot character && "me".toList.isPrefixOf rest)

/-- The placeholder pattern.  It ignores case. -/
def looksLikePlaceholder (key : String) : Bool :=
  (key.toList.map Char.toLower).tails.any (fun text =>
    ["dev", "test", "insecure", "example", "password", "secret"].any
      (fun word => word.toList.isPrefixOf text) || changeMe text)

/-- What `validateCrossField` asks of `API_BOOTSTRAP_KEY` in production. -/
def acceptsBootstrapKey (key : String) : Bool :=
  decide (32 ≤ (Utf16.encode key.toList).length) && !looksLikePlaceholder key

/-! ## The statements -/

namespace ApiKeyTable

variable [DecidableEq Hash]

/-- `WHERE key_hash = $1`. -/
def byHash (table : ApiKeyTable Hash) (hash : Hash) : Option (ApiKeyRow Hash) :=
  table.rows.find? (fun row => decide (row.keyHash = hash))

theorem byHash_eq_some_iff {table : ApiKeyTable Hash} {hash : Hash} {row : ApiKeyRow Hash} :
    table.byHash hash = some row <-> row ∈ table.rows ∧ row.keyHash = hash := by
  rw [byHash, table.uniqueHash.find?_eq_some_iff
    (fun _ => decide_eq_true_iff.trans Option.some_inj.symm), Option.some_inj]

/-- `INSERT`.  A hash that is there already drops the row; the identity value is
drawn in any case. -/
def insert (name : String) (keyHash : Hash) (scopes : List Scope) (queues : Option (List String))
    (expiresAt : Option Int) (table : ApiKeyTable Hash) : ApiKeyTable Hash × Option Nat :=
  match taken : table.byHash keyHash with
  | some _ =>
      ({ table with
        nextId := table.nextId + 1
        identity := fun row member => Nat.lt_succ_of_lt (table.identity row member) }, none)
  | none =>
      ({ rows := table.rows ++ [⟨table.nextId, name, keyHash, scopes, queues, expiresAt, none⟩]
         nextId := table.nextId + 1
         primaryKey := by
           apply table.primaryKey.append
           intro _ row member same
           have drawn := table.identity row member
           rw [Option.some.inj same] at drawn
           exact absurd drawn (Nat.lt_irrefl _)
         uniqueHash := by
           apply table.uniqueHash.append
           intro _ row member same
           rw [byHash_eq_some_iff.mpr ⟨member, Option.some.inj same⟩] at taken
           cases taken
         identity := by
           intro row member
           rcases List.mem_append.mp member with present | added
           · exact Nat.lt_succ_of_lt (table.identity row present)
           · rw [List.mem_singleton.mp added]
             exact Nat.lt_succ_self table.nextId }, some table.nextId)

omit [DecidableEq Hash] in
/-- `UPDATE ... SET revoked_at = now() WHERE id = $1 AND revoked_at IS NULL`. -/
def revoke (id : Nat) (now : Int) (table : ApiKeyTable Hash) : ApiKeyTable Hash × Bool :=
  ({ table with
    rows := table.rows.map (fun row => row.revoke id now)
    primaryKey := table.primaryKey.map (fun row _ => Or.inl (by rw [ApiKeyRow.revoke_id]))
    uniqueHash := table.uniqueHash.map (fun row _ => Or.inl (by rw [ApiKeyRow.revoke_keyHash]))
    identity := by
      intro row member
      rcases List.mem_map.mp member with ⟨source, sourceMem, rfl⟩
      rw [ApiKeyRow.revoke_id]
      exact table.identity source sourceMem },
    table.rows.any (fun row => row.id == id && row.revokedAt.isNone))

end ApiKeyTable

/-! ## `Authenticator` -/

namespace Authenticator

variable [DecidableEq Hash]

/-- Resolves a presented key, unless it is unknown, revoked or expired. -/
def authenticate (sha256 : String -> Hash) (salt : String) (now : Int) (table : ApiKeyTable Hash)
    (presented : String) : Option ApiKeyRecord :=
  if marked presented then
    match table.byHash (hashKey sha256 presented salt) with
    | none => none
    | some row =>
        if row.revokedAt.isSome then none
        else if row.expiresAt.any (fun expiresAt => decide (expiresAt ≤ now)) then none
        else if row.keyHash = hashKey sha256 presented salt then some row.record
        else none
  else none

/-- A generated key that is there already makes the insert fail. -/
def create (sha256 : String -> Hash) (salt : String) (name : String) (scopes : List Scope)
    (queues : Option (List String)) (expiresAt : Option Int) (random : String)
    (table : ApiKeyTable Hash) : ApiKeyTable Hash × Option (Nat × String) :=
  let key := generateKey random
  let inserted := table.insert name (hashKey sha256 key salt) scopes queues expiresAt
  (inserted.1, inserted.2.map (fun id => (id, key)))

/-- `ON CONFLICT (key_hash) DO NOTHING`. -/
def ensureBootstrapKey (sha256 : String -> Hash) (salt : String) (plaintext : String)
    (table : ApiKeyTable Hash) : ApiKeyTable Hash × Option Nat :=
  table.insert "bootstrap" (hashKey sha256 plaintext salt) allScopes none none

/-- A key is resolved when its row is there, not revoked and not expired. -/
theorem authenticate_eq_some_iff {sha256 : String -> Hash} {salt : String} {now : Int}
    {table : ApiKeyTable Hash} {presented : String} {record : ApiKeyRecord} :
    authenticate sha256 salt now table presented = some record <->
      marked presented = true ∧ Exists fun row : ApiKeyRow Hash => row ∈ table.rows ∧
        row.keyHash = hashKey sha256 presented salt ∧ row.revokedAt = none ∧
        (forall expiresAt, row.expiresAt = some expiresAt -> now < expiresAt) ∧
        row.record = record := by
  unfold authenticate
  constructor
  · intro resolved
    split at resolved
    · rename_i isMarked
      refine ⟨isMarked, ?_⟩
      split at resolved
      · cases resolved
      · rename_i row found
        rcases ApiKeyTable.byHash_eq_some_iff.mp found with ⟨member, sameHash⟩
        split at resolved
        · cases resolved
        · rename_i unrevoked
          split at resolved
          · cases resolved
          · rename_i unexpired
            refine ⟨row, member, sameHash, ?_, ?_, Option.some.inj resolved⟩
            · exact Option.not_isSome_iff_eq_none.mp unrevoked
            · intro expiresAt isExpiry
              rw [isExpiry] at unexpired
              simpa using unexpired
    · cases resolved
  · rintro ⟨isMarked, row, member, sameHash, unrevoked, unexpired, rfl⟩
    have found := ApiKeyTable.byHash_eq_some_iff.mpr ⟨member, sameHash⟩
    have valid : row.expiresAt.any (fun expiresAt => decide (expiresAt ≤ now)) = false := by
      cases isExpiry : row.expiresAt with
      | none => rfl
      | some expiresAt =>
          have later := unexpired expiresAt isExpiry
          exact decide_eq_false (Int.not_le.mpr later)
    simp only [isMarked, found, unrevoked, valid, sameHash, if_true, Option.isSome_none,
      Bool.false_eq_true, if_false]

end Authenticator

end PgJobQ
