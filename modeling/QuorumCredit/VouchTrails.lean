import QuorumCredit.Frames
import QuorumCredit.Host.Component
import QuorumCredit.Host.HotLog
/-!
# The trails of vouches

Two logs for every relation of a borrower, a voucher and a token: the history that
`vouch.rs` appends to and the audit trail of `audit.rs`. Both keep a hot window and
cut the rest over into batches. The sizes are constants the source names and does not
define.
-/

open Host Function

namespace QuorumCredit

structure VouchHistoryEntry where
  timestamp : Nat
  modificationType : String
  stakeAmount : Int
  delegate : Option Address
deriving DecidableEq, Repr

inductive VouchAuditEventType where
  | created | stakeIncreased | stakeDecreased | withdrawn
deriving DecidableEq, Repr

structure VouchAuditEvent where
  eventType : VouchAuditEventType
  timestamp : Nat
  amount : Int
  resultingStake : Int
deriving DecidableEq, Repr

/-- Whose vouch for whom, in which token. -/
structure Relation where
  borrower : Address
  voucher : Address
  token : Address
deriving DecidableEq, Repr

structure VouchTrails where
  history : Relation → HotLog VouchHistoryEntry
  audit : Relation → HotLog VouchAuditEvent

/-- `MAX_HOT_*` and `*_ARCHIVE_TRIGGER_ENTRIES`. That the first is below the second, the build asserts of the
audit trail; of the history the tests say 20 and 30. -/
structure TrailSizes where
  hotHistory : Nat
  historyTrigger : Nat
  hotAudit : Nat
  auditTrigger : Nat
  history_lt : hotHistory < historyTrigger
  audit_lt : hotAudit < auditTrigger

variable (sizes : TrailSizes)

def appendVouchHistoryEntry (r : Relation) (entry : VouchHistoryEntry) : Contract VouchTrails Unit := do
  let log := (← look (·.history r)).append sizes.hotHistory sizes.historyTrigger entry
  let _ ← u32 .arithmetic log.archiveCount
  alter fun x => { x with history := update x.history r log }

def logVouchAuditEvent (r : Relation) (eventType : VouchAuditEventType) (amount resultingStake : Int) :
    Contract VouchTrails Unit := do
  let event := { eventType, timestamp := (← ask).now, amount, resultingStake }
  let log := (← look (·.audit r)).append sizes.hotAudit sizes.auditTrigger event
  let _ ← u32 .arithmetic log.archiveCount
  alter fun x => { x with audit := update x.audit r log }

inductive TrailOp where
  | appendVouchHistoryEntry (r : Relation) (entry : VouchHistoryEntry)
  | logVouchAuditEvent (r : Relation) (eventType : VouchAuditEventType) (amount resultingStake : Int)

def TrailOp.run : TrailOp → Contract VouchTrails Unit
  | .appendVouchHistoryEntry r entry => QuorumCredit.appendVouchHistoryEntry sizes r entry
  | .logVouchAuditEvent r eventType amount resultingStake =>
    QuorumCredit.logVouchAuditEvent sizes r eventType amount resultingStake

/-- The trails as a part of the contract; nothing else writes them. -/
def vouchTrails : Component World (List Address) Context Failure VouchTrails TrailOp where
  run := TrailOp.run sizes
  context w signers := { w with signers }
  drift w s w' s' := w.now ≤ w'.now ∧ s' = s

abbrev TrailRun := List (Situated World VouchTrails × Event World (List Address) VouchTrails TrailOp)

def trailStart (world : World) : Situated World VouchTrails := ⟨world, ⟨fun _ => .empty, fun _ => .empty⟩⟩

/-! ## What is read back -/

/-- What the call adds to the history of `r`. -/
def TrailOp.entries (r : Relation) : TrailOp → List VouchHistoryEntry
  | .appendVouchHistoryEntry r' entry => if r' = r then [entry] else []
  | .logVouchAuditEvent .. => []

/-- What the call adds to the audit trail of `r`. -/
def TrailOp.events (w : World) (r : Relation) : TrailOp → List VouchAuditEvent
  | .appendVouchHistoryEntry .. => []
  | .logVouchAuditEvent r' eventType amount resultingStake =>
    if r' = r then [{ eventType, timestamp := w.now, amount, resultingStake }] else []

/-- All that was logged for `r`, oldest first. -/
def logged (r : Relation) : TrailRun → List VouchHistoryEntry × List VouchAuditEvent :=
  (vouchTrails sizes).replay (fun s op _ l => (l.1 ++ op.entries r, l.2 ++ op.events s.world r)) ([], [])

/-- The batches of the archive and the window after them hold what was logged, and no
piece is longer than it may be. -/
structure TrailsKept (l : List VouchHistoryEntry × List VouchAuditEvent) (s : VouchTrails) (r : Relation) : Prop where
  history : (s.history r).entries = l.1
  audit : (s.audit r).entries = l.2
  historyBounded : (s.history r).Bounded sizes.hotHistory sizes.historyTrigger
  auditBounded : (s.audit r).Bounded sizes.hotAudit sizes.auditTrigger

theorem TrailsKept.call {l : List VouchHistoryEntry × List VouchAuditEvent} {ctx : Context} {s : VouchTrails}
    {r : Relation} (h : TrailsKept sizes l s r) (op : TrailOp) : Yields (op.run sizes) ctx s fun _ t =>
      TrailsKept sizes (l.1 ++ op.entries r, l.2 ++ op.events ctx.toWorld r) t r := by
  cases op with
  | appendVouchHistoryEntry r' entry =>
    simp only [TrailOp.run, appendVouchHistoryEntry, yields_steps, yields_u32]
    refine fun _ => ⟨?_, ?_, HotLog.bounded_update _ r' r entry sizes.history_lt h.historyBounded, h.auditBounded⟩
    · exact (HotLog.entries_update _ r' r entry).trans (by rw [h.history]; rfl)
    · exact h.audit.trans (List.append_nil _).symm
  | logVouchAuditEvent r' eventType amount resultingStake =>
    simp only [TrailOp.run, logVouchAuditEvent, yields_steps, yields_u32]
    refine fun _ => ⟨?_, ?_, h.historyBounded, HotLog.bounded_update _ r' r _ sizes.audit_lt h.auditBounded⟩
    · exact h.history.trans (List.append_nil _).symm
    · exact (HotLog.entries_update _ r' r _).trans (by rw [h.audit]; rfl)

/-- Nothing that is logged is lost: of every relation, and after every run, both logs are
read back in order, off a window and batches of bounded size. -/
theorem trails_kept {world : World} {h : TrailRun} {s : Situated World VouchTrails}
    (hr : Run (vouchTrails sizes).Step (trailStart world) h s) (r : Relation) :
    TrailsKept sizes (logged sizes r h) s.store r := by
  refine Component.inv (I := fun h s => TrailsKept sizes (logged sizes r h) s.store r) ?_ (fun _ hi he => ?_)
    (fun hi hnone hsame => ?_) hr
  · exact ⟨rfl, rfl, HotLog.bounded_empty sizes.history_lt, HotLog.bounded_empty sizes.audit_lt⟩
  · rw [logged, Component.replay_call he]
    exact Component.exec_yields (C := vouchTrails sizes) (hi.call sizes _) he
  · rw [logged, Component.replay_idle hnone]
    rcases hsame with rfl | ⟨-, hstore⟩
    · exact hi
    · rw [hstore]
      exact hi

/-- Three entries, of which the oldest is cut over. -/
theorem trails_kept_threeEntries :
    let sizes : TrailSizes := ⟨2, 3, 2, 3, by decide, by decide⟩
    let r : Relation := ⟨10, 2, 100⟩
    let calls := List.replicate 3 (([], .appendVouchHistoryEntry r ⟨0, "increase", 5, none⟩) : List Address × TrailOp)
    let s := trailStart sampleWorld
    let C := vouchTrails sizes
    TrailsKept sizes (logged sizes r (C.trace s [] calls)) (C.play s calls).store r :=
  trails_kept _ (Component.run_play _ .nil _) _

end QuorumCredit
