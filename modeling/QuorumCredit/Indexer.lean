import QuorumCredit.IndexerMetrics
import QuorumCredit.Host.InPlace
import Mathlib.Data.List.MinMax
import Mathlib.Data.List.Sort
/-!
# The indexer

`indexer.rs` with the tables of `db.rs`: polling, backfill, the check for a
reorg and the start. Each write to the database is committed by itself, so it
stays where a call fails. The service answers every request; a loop that is given
no more rounds counts as endless.
-/

open Function

namespace QuorumCredit.Indexer

open Host

structure IndexerConfig where
  retentionWindowLedgers : Nat
  backfillChunkSize : Nat
  deployLedger : Option Nat

structure LatestLedger where
  sequence : Nat
  hash : Option String

structure SorobanRpc where
  latestLedger : LatestLedger
  getEvents : (startLedger limit : Nat) → (cursor : Option String) → List SorobanEvent

/-! ## The store -/

structure Store where
  lastLedger : Option Nat
  events : List Event
  ledgerHashes : List (Nat × String)
  reorgAudit : List (Nat × String × String)

def Store.empty : Store := { lastLedger := none, events := [], ledgerHashes := [], reorgAudit := [] }

/-- The columns of the unique index. -/
def Event.key (event : Event) : Nat × String × String × String :=
  (event.ledger, event.txHash, event.category, event.action)

namespace Store

variable (s : Store)

def setLastLedger (ledger : Nat) : Store := { s with lastLedger := some ledger }

def storeLedgerHash (sequence : Nat) (hash : String) : Store :=
  { s with ledgerHashes := (sequence, hash) :: s.ledgerHashes.filter (·.1 ≠ sequence) }

def getLatestSequenceWithHash : Option (Nat × String) := s.ledgerHashes.argmax Prod.fst

/-- Whether the unique index has no such event yet. -/
def Lacks (event : Event) : Prop := ∀ e ∈ s.events, e.key ≠ event.key

instance (event : Event) : Decidable (s.Lacks event) := inferInstanceAs (Decidable (∀ e ∈ s.events, _))

def insertEvent (event : Event) : Store := if s.Lacks event then { s with events := s.events ++ [event] } else s

def rollbackFromLedger (fromLedger : Nat) (expectedHash actualHash : String) : Store :=
  { events := s.events.filter (·.ledger < fromLedger)
    lastLedger := some (fromLedger - 1)
    ledgerHashes := s.ledgerHashes.filter (·.1 < fromLedger)
    reorgAudit := s.reorgAudit ++ [(fromLedger, expectedHash, actualHash)] }

/-- By ledger, and in the order of insertion within a ledger. -/
def getAllEvents : List Event := s.events.insertionSort fun e e' => e.ledger ≤ e'.ledger

end Store

/-! ## Calls -/

structure IndexerState where
  store : Store
  metrics : IndexerMetrics

/-- What a call sees: the configuration, the service, and what is left open about parsing and hash maps. -/
structure IndexerContext where
  config : IndexerConfig
  rpc : SorobanRpc
  parseStake : String → Option Int
  order : RebuildOrder

/-- Why a call does not return: the decoder panics, a number leaves `u32`, or a loop goes on. -/
inductive Halt where
  | undecodable
  | overflow
  | endless
deriving DecidableEq

abbrev Task := InPlace IndexerContext Halt IndexerState

open InPlace

def u32 (n : Nat) : Task Nat := do
  require (n < 2 ^ 32) .overflow
  return n

def writeStore (f : Store → Store) : Task Unit := alter fun i => { i with store := f i.store }

def writeMetrics (f : IndexerMetrics → IndexerMetrics) : Task Unit := alter fun i => { i with metrics := f i.metrics }

def processEvent (event : SorobanEvent) : Task Bool := do
  let ctx ← ask
  let ev ← orFail event.record .undecodable
  let inserted ← look fun i => decide (i.store.Lacks ev)
  writeStore (·.insertEvent ev)
  writeMetrics fun m => if inserted = true then m.recordEvent ctx.parseStake ev else m
  return inserted

/-- One page, with the number of events inserted so far and what each of them counts towards. -/
def processPage (counted : IndexerMetrics → IndexerMetrics) : List SorobanEvent → (total : Nat) → Task Nat
  | [], total => return total
  | event :: events, total => do
    let inserted ← processEvent event
    writeMetrics fun m => if inserted = true then counted m else m
    processPage counted events (if inserted = true then total + 1 else total)

def rebuildMetrics : Task Unit := do
  let ctx ← ask
  let all ← look (·.store.getAllEvents)
  writeMetrics fun m => m.rebuildFromEvents ctx.parseStake ctx.order all

/-- The loop of `backfill`, chunk by chunk. -/
def backfillFrom (toLedger : Nat) : (rounds : Nat) → (current : Nat) → Task Unit
  | rounds, current => do
    let ctx ← ask
    if toLedger < current then return ()
    else match rounds with
      | 0 => fail .endless
      | rounds + 1 => do
        let chunk := ctx.config.backfillChunkSize
        -- one page for the whole chunk, which is not read on
        let chunkEnd ← u32 (current + chunk)
        let stop := min (chunkEnd - 1) toLedger
        let _ ← processPage (fun m => { m with backfillEventsTotal := m.backfillEventsTotal + 1 })
          (ctx.rpc.getEvents current chunk none) 0
        writeStore (·.setLastLedger stop)
        let next ← u32 (stop + 1)
        backfillFrom toLedger rounds next

def backfill (rounds fromLedger toLedger : Nat) : Task Unit := do
  let current ← u32 (fromLedger + 1)
  backfillFrom toLedger rounds current

def countGap : Task Unit := writeMetrics fun m => { m with gapsDetected := m.gapsDetected + 1 }

def pageLimit : Nat := 200

def SorobanEvent.cursor (event : SorobanEvent) : String := toString event.ledger ++ "-" ++ event.txHash

/-- The loop of `poll_events`, page by page, with the number of events inserted. -/
def fetchPages (start gap : Nat) : (rounds : Nat) → (cursor : Option String) → (total : Nat) → Task Nat
  | 0, _, _ => fail .endless
  | rounds + 1, cursor, total => do
    let ctx ← ask
    let page := ctx.rpc.getEvents start pageLimit cursor
    let total ← processPage id page total
    if page.length < pageLimit ∨ gap ≤ total then return total
    -- the cursor names the transaction of the last event
    else fetchPages start gap rounds (page.getLast?.map (·.cursor)) total

/-- The check for a reorg, and whether it found one. -/
def checkReorg (latestSeq : Nat) : Option String → Task Bool
  | none => return false
  | some hash => do
    let stored ← look (·.store.getLatestSequenceWithHash)
    -- the hashes of earlier ledgers are not compared
    match stored.filter fun (storedSeq, storedHash) => storedSeq = latestSeq ∧ storedHash ≠ hash with
    | some (storedSeq, storedHash) => do
      writeMetrics fun m => { m with reorgsDetected := m.reorgsDetected + 1 }
      writeStore (·.rollbackFromLedger storedSeq storedHash hash)
      rebuildMetrics
      writeStore (·.storeLedgerHash latestSeq hash)
      return true
    | none => do
      writeStore (·.storeLedgerHash latestSeq hash)
      return false

theorem filter_replaced {latestSeq : Nat} {hash : String} {stored : Nat × String} (hseq : stored.1 = latestSeq)
    (hhash : stored.2 ≠ hash) :
    (some stored).filter (fun (storedSeq, storedHash) => storedSeq = latestSeq ∧ storedHash ≠ hash) = some stored := by
  rw [Option.filter_some, if_pos (decide_eq_true ⟨hseq, hhash⟩)]

theorem filter_unchanged {latestSeq : Nat} {hash : String} {stored : Option (Nat × String)}
    (h : ∀ e ∈ stored, e.1 = latestSeq → e.2 = hash) :
    stored.filter (fun (storedSeq, storedHash) => storedSeq = latestSeq ∧ storedHash ≠ hash) = none := by
  refine Option.filter_eq_none_iff.2 fun e he hdiffers => ?_
  obtain ⟨hseq, hhash⟩ := of_decide_eq_true hdiffers
  exact hhash (h e he hseq)

/-- The events after `lastLedger`, through backfill if they are too many ledgers back. -/
def fetchNew (rounds lastLedger latestSeq : Nat) : Task Bool := do
  let ctx ← ask
  let gap := latestSeq - lastLedger
  if ctx.config.retentionWindowLedgers < gap then do
    countGap
    backfill rounds lastLedger latestSeq
    return true
  else do
    let start ← u32 (lastLedger + 1)
    let total ← fetchPages start gap rounds none 0
    -- moved by the number of new events, not of ledgers
    let newLast ← u32 (if 0 < total then start + (total % 2 ^ 32 - 1) else latestSeq)
    writeStore (·.setLastLedger newLast)
    return decide (0 < total)

def pollEvents (rounds : Nat) : Task Bool := do
  let ctx ← ask
  let lastLedger ← look fun i => i.store.lastLedger.getD 0
  let latest := ctx.rpc.latestLedger
  if latest.sequence ≤ lastLedger then return false
  else do
    let reorg ← checkReorg latest.sequence latest.hash
    if reorg = true then return false else fetchNew rounds lastLedger latest.sequence

/-- The ledger a fresh indexer starts at. -/
def IndexerConfig.startLedger (config : IndexerConfig) (current : Nat) : Nat :=
  config.deployLedger.getD (current - 1000)

/-- The cursor at the start: kept, filled up if it is too far back, or set. -/
def resumeCursor (rounds current : Nat) : Option Nat → Task Unit
  | some ledger => do
    let ctx ← ask
    if ctx.config.retentionWindowLedgers < current - ledger then do
      countGap
      backfill rounds ledger current
    else return ()
  | none => do
    let ctx ← ask
    writeStore (·.setLastLedger (ctx.config.startLedger current - 1))

def initializeIndexer (rounds : Nat) : Task Unit := do
  let ctx ← ask
  let stored ← look (·.store.lastLedger)
  resumeCursor rounds ctx.rpc.latestLedger.sequence stored
  let all ← look (·.store.getAllEvents)
  if all = [] then return () else rebuildMetrics

inductive IndexerOp where
  | initializeIndexer
  | pollEvents
deriving DecidableEq

def IndexerOp.run (rounds : Nat) : IndexerOp → Task Unit
  | .initializeIndexer => Indexer.initializeIndexer rounds
  | .pollEvents => do
    let _ ← Indexer.pollEvents rounds

end QuorumCredit.Indexer
