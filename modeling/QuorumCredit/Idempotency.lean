import QuorumCredit.Host.OrderedMap
import Mathlib.Tactic.Common
/-!
# Idempotency keys

`idempotency.ts`: the records kept for the keys of mutating requests, and the
wrapper that answers a request from its record or runs the handler under one. The
wrapper looks at the records once, when the request's body has been read, and the
end of a handler finds its record by the key.
-/

namespace QuorumCredit.Server

open Host

/-! ## Records -/

structure StoredResponse where
  statusCode : Nat
  headers : OrderedMap String String
  body : List UInt8
deriving DecidableEq

inductive RecordState where
  | inFlight
  | completed
deriving DecidableEq, Repr

structure IdempotencyRecord where
  fingerprint : String
  state : RecordState
  response : Option StoredResponse
  createdAt : Nat
  expiresAt : Nat
deriving DecidableEq

structure IdempotencyStoreOptions where
  ttlMs : Nat := 24 * 60 * 60 * 1000
  inFlightTtlMs : Nat := 60 * 1000
  maxRecords : Nat := 100000
  maxBodyBytes : Nat := 1024 * 1024

abbrev IdempotencyStore := OrderedMap String IdempotencyRecord

namespace IdempotencyStore

/-- An expired record is dropped and not found. -/
def lookup (records : IdempotencyStore) (now : Nat) (key : String) : Option IdempotencyRecord × IdempotencyStore :=
  match records.get key with
  | some record => if record.expiresAt ≤ now then (none, records.erase key) else (some record, records)
  | none => (none, records)

/-- The loop of `evictOverflow`, for as many turns as there are records. -/
def evictLoop (maxRecords : Nat) : Nat → IdempotencyStore → IdempotencyStore
  | 0, records => records
  | turns + 1, records =>
    if maxRecords < records.size then
      match records.keys.head? with
      | none => records
      | some oldest => evictLoop maxRecords turns (records.erase oldest)
    else records

def evictOverflow (maxRecords : Nat) (records : IdempotencyStore) : IdempotencyStore :=
  evictLoop maxRecords records.size records

def beginRecord (opts : IdempotencyStoreOptions) (records : IdempotencyStore) (now : Nat) (key fingerprint : String) :
    IdempotencyStore :=
  evictOverflow opts.maxRecords
    (records.set key
      { fingerprint, state := .inFlight, response := none, createdAt := now, expiresAt := now + opts.inFlightTtlMs })

def complete (opts : IdempotencyStoreOptions) (records : IdempotencyStore) (now : Nat) (key : String)
    (response : StoredResponse) : IdempotencyStore :=
  match records.get key with
  | none => records
  | some record =>
    records.set key { record with state := .completed, response := some response, expiresAt := now + opts.ttlMs }

def release (records : IdempotencyStore) (key : String) : IdempotencyStore := records.erase key

def cleanup (records : IdempotencyStore) (now : Nat) : IdempotencyStore :=
  records.filter fun _ record => now < record.expiresAt

end IdempotencyStore

/-! ## Capturing a response -/

structure Capture where
  chunks : List (List UInt8)
  size : Nat
  overflow : Bool

def Capture.collect (maxBodyBytes : Nat) (c : Capture) (chunk : List UInt8) : Capture :=
  if c.overflow then c
  else if maxBodyBytes < c.size + chunk.length then ⟨[], c.size + chunk.length, true⟩
  else ⟨c.chunks ++ [chunk], c.size + chunk.length, false⟩

/-- What a handler sends: the headers given to `writeHead`, those of `getHeaders`, and the body in chunks. -/
structure HandlerResponse where
  statusCode : Nat
  writeHeadHeaders : List (String × String)
  headers : List (String × String)
  chunks : List (List UInt8)
deriving DecidableEq

/-- How a response ends: it was sent, or the connection was closed before. -/
inductive Outcome where
  | finish (response : HandlerResponse)
  | close
deriving DecidableEq

def HandlerResponse.mergedHeaders (r : HandlerResponse) : OrderedMap String String :=
  r.headers.foldl (fun headers x => headers.set x.1 x.2)
    (r.writeHeadHeaders.foldl (fun headers x => headers.set x.1.toLower x.2) .empty)

/-- What `captureResponse` passes on. -/
def captureResponse (maxBodyBytes : Nat) : Outcome → Option StoredResponse
  | .close => none
  | .finish r =>
    let c := r.chunks.foldl (Capture.collect maxBodyBytes) ⟨[], 0, false⟩
    if c.overflow then none else some ⟨r.statusCode, r.mergedHeaders, c.chunks.flatten⟩

/-! ## The wrapper -/

def maxKeyLength : Nat := 255

def idempotentMethods : List String := ["POST", "PUT", "PATCH", "DELETE"]

/-- A request whose body has been read: `keys` are the values of the header `idempotency-key`,
`principal` that of `authorization` or else `x-api-key`. -/
structure IdempotentRequest where
  method : String
  keys : List String
  principal : String
  pathname : String
  search : String
  body : String

inductive Reply where
  /-- The handler runs without a record. -/
  | next
  | error (statusCode : Nat) (headers : List (String × String)) (message : String)
  | replay (response : StoredResponse)
  /-- The handler runs under a new record. -/
  | run
deriving DecidableEq

def StoredResponse.replayed (r : StoredResponse) : StoredResponse :=
  { r with headers := r.headers.set "idempotent-replayed" "true" }

def json : String × String := ("content-type", "application/json")

def ValidKey (key : String) : Prop := key.length ≤ maxKeyLength ∧ ∀ c ∈ key.toList, '\x21' ≤ c ∧ c ≤ '\x7e'

instance ValidKey.decidable (key : String) : Decidable (ValidKey key) :=
  @instDecidableAnd _ _ _ (List.decidableBAll _ key.toList)

section

variable (opts : IdempotencyStoreOptions) (hash : String → String)

def scopedKey (req : IdempotentRequest) (key : String) : String :=
  hash (req.principal ++ "\n" ++ req.method ++ "\n" ++ req.pathname ++ "\n" ++ key)

def fingerprint (req : IdempotentRequest) : String := hash (req.search ++ "\n" ++ req.body)

/-- The part of the wrapper after the body was read. -/
def withRecord (records : IdempotencyStore) (now : Nat) (key fingerprint : String) : Reply × IdempotencyStore :=
  match records.lookup now key with
  | (some existing, records) =>
    if existing.fingerprint ≠ fingerprint then
      (.error 422 [json] "Idempotency-Key was already used with a different request payload", records)
    else
      match existing.state, existing.response with
      | .completed, some response => (.replay response.replayed, records)
      | _, _ =>
        (.error 409 [json, ("retry-after", "1")] "a request with this Idempotency-Key is still being processed",
          records)
  | (none, records) => (.run, records.beginRecord opts now key fingerprint)

def withIdempotency (records : IdempotencyStore) (now : Nat) (req : IdempotentRequest) : Reply × IdempotencyStore :=
  match req.keys.head? with
  | none => (.next, records)
  | some key =>
    if key = "" ∨ req.method ∉ idempotentMethods then (.next, records)
    else if ¬ ValidKey key then
      (.error 400 [json] "Idempotency-Key must be 1-255 printable ASCII characters", records)
    else withRecord opts records now (scopedKey hash req key) (fingerprint hash req)

/-- What the wrapper does with a response that has ended, to whatever record its key has by then. -/
def onFinish (records : IdempotencyStore) (now : Nat) (key : String) (captured : Option StoredResponse) :
    IdempotencyStore :=
  match captured with
  | none => records.release key
  | some response =>
    if response.statusCode ≥ 500 then records.release key else records.complete opts now key response

end

end QuorumCredit.Server
