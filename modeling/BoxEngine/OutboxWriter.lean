import BoxEngine.Lib.Keyed
import BoxEngine.Lib.Number
import BoxEngine.Lib.Text

/-!
# The outbox and its writer

The `mongo_outbox` table and what its writers do inside a transaction of their caller. A statement waits for a row
another transaction holds; the sequence is drawn where it starts.
-/

namespace BoxEngine

open Js

inductive Json where
  | null
  | bool (b : Bool)
  | num (n : Number)
  | str (s : String)
  | arr (items : List Json)
  | obj (fields : List (String × Json))

def FORBIDDEN_KEYS : List String :=
  ["access_token", "accesstoken", "refresh_token", "request_token", "api_secret", "apisecret", "encrypted_access_token",
    "encryption_iv", "encryption_auth_tag", "session_token", "session_token_hash", "csrf_secret", "passcode",
    "site_access_secret", "token_passcode", "password", "database_url", "mongodb_uri", "connection_string",
    "broker_token_encryption_key"]

/-- Lower case as far as it gives letters of ASCII: the capitals and the Kelvin sign. -/
def lowerCaseChar (c : Char) : Char := if c.toNat = 0x212A then 'k' else c.toLower

def forbidden (key : String) : Bool := String.ofList (key.toList.map lowerCaseChar) ∈ FORBIDDEN_KEYS

mutual

def secretField (path : String) : Json → Option String
  | .arr items => secretItem path 0 items
  | .obj fields => secretOf path fields
  | _ => none

def secretItem (path : String) (i : ℕ) : List Json → Option String
  | [] => none
  | item :: items => (secretField (path ++ "[" ++ toString i ++ "]") item).or (secretItem path (i + 1) items)

def secretOf (path : String) : List (String × Json) → Option String
  | [] => none
  | (key, child) :: fields =>
    if forbidden key then some (path ++ "." ++ key)
    else (secretField (path ++ "." ++ key) child).or (secretOf path fields)

end

def assertNoSecretFields (value : Json) : Option String := secretField "$" value

example : assertNoSecretFields (.obj [("legs", .arr [.null, .obj [("Access_Token", .str "x")]])]) =
    some "$.legs[1].Access_Token" := by decide

/-! ## Rows -/

structure OutboxEvent where
  eventId : String
  aggregateType : String
  aggregateId : String
  eventType : String
  schemaVersion : Option ℕ
  payload : Json

structure OutboxRow where
  eventId : String
  aggregateType : String
  aggregateId : String
  eventType : String
  schemaVersion : ℕ
  sequence : ℕ
  payload : Json
  attempts : ℕ
  nextAttemptAt : ℚ
  publishedAt : Option ℚ
  lastError : Option String
  deadLetteredAt : Option ℚ

namespace OutboxRow

def ofEvent (event : OutboxEvent) (sequence : ℕ) (now : ℚ) : OutboxRow where
  eventId := event.eventId
  aggregateType := event.aggregateType
  aggregateId := event.aggregateId
  eventType := event.eventType
  schemaVersion := event.schemaVersion.getD 1
  sequence
  payload := event.payload
  attempts := 0
  nextAttemptAt := now
  publishedAt := none
  lastError := none
  deadLetteredAt := none

def pending (row : OutboxRow) : Bool := row.publishedAt.isNone && row.deadLetteredAt.isNone

def due (row : OutboxRow) (now : ℚ) : Bool := row.pending && row.nextAttemptAt ≤ now

def revive (event : OutboxEvent) (sequence : ℕ) (now : ℚ) (row : OutboxRow) : OutboxRow :=
  { row with
    payload := event.payload
    eventType := event.eventType
    schemaVersion := event.schemaVersion.getD 1
    sequence
    publishedAt := none
    attempts := 0
    nextAttemptAt := now
    lastError := none
    deadLetteredAt := none }

end OutboxRow

inductive EnqueueKind where
  | event
  | snapshot
  deriving DecidableEq

inductive WriterState where
  | waiting (sequence : ℕ)
  | inserted (row : OutboxRow)
  | updated (sequence : ℕ) (now : ℚ)
  | ignored
  | ended

structure WriterTx where
  kind : EnqueueKind
  event : OutboxEvent
  state : WriterState

namespace WriterTx

variable (tx : WriterTx)

def inserting (eventId : String) : Bool :=
  match tx.state with
  | .inserted _ => tx.event.eventId = eventId
  | _ => false

def updating (eventId : String) : Bool :=
  match tx.state with
  | .updated _ _ => tx.event.eventId = eventId
  | _ => false

def commit (rows : List OutboxRow) : List OutboxRow :=
  match tx.state with
  | .inserted row => rows ++ [row]
  | .updated sequence now =>
    rows.map fun row => if row.eventId = tx.event.eventId then row.revive tx.event sequence now else row
  | _ => rows

end WriterTx

end BoxEngine
