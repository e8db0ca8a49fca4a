import QuorumCredit.AuditTrail
import QuorumCredit.CredentialRateLimit
import QuorumCredit.Host.InPlace
/-!
# Credential batches

`credential_batch.rs`: operations on credentials are recorded and later executed
together, in two phases. The first checks and writes nothing; the second writes
and never fails. Execution is modelled in place, without the host's rollback:
nothing is left to undo.
-/

open Host Function

namespace QuorumCredit

def maxBatchOperations : Nat := 20

inductive BatchOperation where
  | appendAuditEntry (holder : Address) (event : List UInt8)
  | setVerificationRateLimit (holder : Address) (limit : Nat)
deriving DecidableEq

inductive BatchStatus where
  | pending | executed
deriving DecidableEq

structure CredentialBatch where
  batchId : Nat
  operations : List BatchOperation
  status : BatchStatus
  createdAt : Nat
  executedAt : Nat

structure Batches where
  credentialBatch : Nat → Option CredentialBatch
  credentialBatchCounter : Nat

def Batches.empty : Batches := { credentialBatch := fun _ => none, credentialBatchCounter := 0 }

structure BatchStore where
  batches : Batches
  trails : AuditTrails
  rates : RateLimits

instance : Part BatchStore Batches where
  get := BatchStore.batches
  set b s := { s with batches := b }
instance : Part BatchStore AuditTrails where
  get := BatchStore.trails
  set a s := { s with trails := a }
instance : Part BatchStore RateLimits where
  get := BatchStore.rates
  set r s := { s with rates := r }

/-! ## The steps in place

What the batch calls, written without rollback; with it, they are the functions
of the audit trail and of the rate limit.
-/

def requireAuthInPlace {σ : Type} (who : Address) : InPlace Context Failure σ Unit := do
  let ctx ← InPlace.ask
  InPlace.require (who ∈ ctx.signers ∧ who ≠ ctx.contract) (.unauthorized who)

def validateAuditEventInPlace {σ : Type} (event : List UInt8) : InPlace Context Failure σ Unit :=
  InPlace.require (event ≠ [] ∧ event.length ≤ maxAuditEventBytes) (.error .invalidAuditEvent)

def validateVerificationLimitInPlace {σ : Type} (limit : Nat) : InPlace Context Failure σ Unit :=
  InPlace.require (limit ≠ 0 ∧ limit ≤ maxVerificationLimit) (.error .invalidRateLimit)

def appendInPlace (credentialId : Address) (event : List UInt8) : InPlace Context Failure AuditTrails Nat := do
  validateAuditEventInPlace event
  let ctx ← InPlace.ask
  let trail ← InPlace.look (·.credentialAuditTrail credentialId)
  InPlace.require (trail.length < maxHotAuditEntries) (.error .auditTrailFull)
  let trail := trail ++ [{ timestamp := .ofNat ctx.now, event }]
  InPlace.alter fun a : AuditTrails =>
    { a with credentialAuditTrail := update a.credentialAuditTrail credentialId trail }
  return trail.length

def setLimitInPlace (holder : Address) (limit : Nat) : InPlace Context Failure RateLimits VerificationRateLimit := do
  validateVerificationLimitInPlace limit
  let ctx ← InPlace.ask
  let config ← InPlace.look (·.getVerificationRateLimit holder)
  let config := { config with limit, updatedAt := ctx.now }
  InPlace.alter fun r : RateLimits =>
    { r with verificationRateLimit := update r.verificationRateLimit holder (some config) }
  let bucket : TokenBucket := { tokens := limit, lastRefillAt := ctx.now }
  InPlace.alter fun r : RateLimits => { r with verificationBucket := update r.verificationBucket holder (some bucket) }
  return config

theorem commit_appendInPlace (credentialId : Address) (event : List UInt8) :
    (appendInPlace credentialId event).commit = appendCredentialAuditEntry credentialId event := by
  simp only [appendInPlace, appendCredentialAuditEntry, validateAuditEventInPlace, validateAuditEvent,
    InPlace.commit_bind, InPlace.commit_require, InPlace.commit_ask, InPlace.commit_look, InPlace.commit_alter,
    InPlace.commit_pure]

theorem commit_setLimitInPlace (holder : Address) (limit : Nat) :
    (setLimitInPlace holder limit).commit = setVerificationRateLimit holder limit := by
  simp only [setLimitInPlace, setVerificationRateLimit, validateVerificationLimitInPlace, validateVerificationLimit,
    InPlace.commit_bind, InPlace.commit_require, InPlace.commit_ask, InPlace.commit_look, InPlace.commit_alter,
    InPlace.commit_pure]

/-! ## The source -/

def BatchOperation.validate {σ : Type} : BatchOperation → Contract σ Unit
  | .appendAuditEntry _ event => validateAuditEvent event
  | .setVerificationRateLimit _ limit => validateVerificationLimit limit

def validateOperations {σ : Type} : List BatchOperation → Contract σ Unit
  | [] => pure ()
  | op :: ops => do
    op.validate
    validateOperations ops

def createBatchOperation (operations : List BatchOperation) : Contract Batches Nat := do
  require (operations ≠ []) (.error .emptyBatch)
  require (operations.length ≤ maxBatchOperations) (.error .batchTooLarge)
  validateOperations operations
  let counter ← look (·.credentialBatchCounter)
  let batchId ← u64 .arithmetic (counter + 1)
  alter fun b : Batches => { b with credentialBatchCounter := batchId }
  let ctx ← ask
  let batch : CredentialBatch := { batchId, operations, status := .pending, createdAt := ctx.now, executedAt := 0 }
  alter fun b : Batches => { b with credentialBatch := update b.credentialBatch batchId (some batch) }
  return batchId

def AuditTrails.hotEntryCount (a : AuditTrails) (credentialId : Address) : Nat :=
  (a.credentialAuditTrail credentialId).length

/-- The map from holders to their pending appends. All its entries are checked
for the same error, so their order does not matter. -/
abbrev PendingAppends := List (Address × Nat)

def PendingAppends.get (pending : PendingAppends) (holder : Address) : Nat := (pending.lookup holder).getD 0

def PendingAppends.put (pending : PendingAppends) (holder : Address) (n : Nat) : PendingAppends :=
  (holder, n) :: pending.filter fun p => p.1 ≠ holder

def u32InPlace {σ : Type} (n : Nat) : InPlace Context Failure σ Nat := do
  InPlace.require (n < 2 ^ 32) .arithmetic
  return n

/-- The first loop of `check_batch`. -/
def checkOperations (pending : PendingAppends) : List BatchOperation → InPlace Context Failure BatchStore PendingAppends
  | [] => pure pending
  | .appendAuditEntry holder event :: ops => do
    requireAuthInPlace holder
    validateAuditEventInPlace event
    let soFar ← u32InPlace (pending.get holder + 1)
    checkOperations (pending.put holder soFar) ops
  | .setVerificationRateLimit holder limit :: ops => do
    requireAuthInPlace holder
    validateVerificationLimitInPlace limit
    checkOperations pending ops

/-- The second loop: every trail has room for its pending appends. -/
def checkRoom : PendingAppends → InPlace Context Failure BatchStore Unit
  | [] => pure ()
  | (holder, added) :: pending => do
    let count ← InPlace.look (·.trails.hotEntryCount holder)
    let total ← u32InPlace (count + added)
    InPlace.require (total ≤ maxHotAuditEntries) (.error .auditTrailFull)
    checkRoom pending

def checkBatch (operations : List BatchOperation) : InPlace Context Failure BatchStore Unit := do
  let pending ← checkOperations [] operations
  checkRoom pending

/-- The writes of one operation. -/
def BatchOperation.perform : BatchOperation → InPlace Context Failure BatchStore Unit
  | .appendAuditEntry holder event => do
    let _ ← InPlace.zoom (appendInPlace holder event)
    return
  | .setVerificationRateLimit holder limit => do
    let _ ← InPlace.zoom (setLimitInPlace holder limit)
    return

def applyOperations : List BatchOperation → InPlace Context Failure BatchStore Unit
  | [] => pure ()
  | op :: ops => do
    op.perform
    applyOperations ops

/-- `execute_batch_operation`, with nothing undone where it fails. -/
def executeInPlace (batchId : Nat) : InPlace Context Failure BatchStore Unit := do
  let stored ← InPlace.look (·.batches.credentialBatch batchId)
  let batch ← InPlace.orFail stored (.error .batchNotFound)
  InPlace.require (batch.status ≠ .executed) (.error .batchAlreadyExecuted)
  checkBatch batch.operations
  applyOperations batch.operations
  let ctx ← InPlace.ask
  let batch := { batch with status := .executed, executedAt := ctx.now }
  InPlace.alter fun s : BatchStore =>
    { s with batches := { s.batches with credentialBatch := update s.batches.credentialBatch batchId (some batch) } }

def executeBatchOperation (batchId : Nat) : Contract BatchStore Unit := (executeInPlace batchId).commit

/-! ## The check -/

/-- What the operation writes at `now`. -/
def BatchOperation.apply (now : Nat) (s : BatchStore) : BatchOperation → BatchStore
  | .appendAuditEntry holder event =>
    let trail := s.trails.credentialAuditTrail holder ++ [{ timestamp := .ofNat now, event }]
    { s with trails := { s.trails with credentialAuditTrail := update s.trails.credentialAuditTrail holder trail } }
  | .setVerificationRateLimit holder limit =>
    let config := { s.rates.getVerificationRateLimit holder with limit, updatedAt := now }
    { s with rates :=
        { verificationRateLimit := update s.rates.verificationRateLimit holder (some config)
          verificationBucket := update s.rates.verificationBucket holder
            (some { tokens := limit, lastRefillAt := now }) } }

/-- The operation's input is in bounds. -/
def BatchOperation.Valid : BatchOperation → Prop
  | .appendAuditEntry _ event => event ≠ [] ∧ event.length ≤ maxAuditEventBytes
  | .setVerificationRateLimit _ limit => limit ≠ 0 ∧ limit ≤ maxVerificationLimit

/-- The number of appends to a holder's trail. -/
def appendsTo (holder : Address) : List BatchOperation → Nat
  | [] => 0
  | .appendAuditEntry holder' _ :: ops => (if holder' = holder then 1 else 0) + appendsTo holder ops
  | .setVerificationRateLimit _ _ :: ops => appendsTo holder ops

/-- Every trail has room for the appends of the operations. -/
def HasRoom (s : BatchStore) (ops : List BatchOperation) : Prop :=
  ∀ holder, 0 < appendsTo holder ops → s.trails.hotEntryCount holder + appendsTo holder ops ≤ maxHotAuditEntries

theorem PendingAppends.lookup_filter (pending : PendingAppends) {holder other : Address} (hne : other ≠ holder) :
    (pending.filter fun p => p.1 ≠ holder).lookup other = pending.lookup other := by
  induction pending with
  | nil => rfl
  | cons p pending ih =>
    by_cases hsame : p.1 = holder
    · rw [List.filter_cons_of_neg (by simpa using hsame), List.lookup_cons, beq_false_of_ne (hsame ▸ hne)]
      exact ih
    · rw [List.filter_cons_of_pos (by simpa using hsame), List.lookup_cons, List.lookup_cons, ih]

theorem PendingAppends.get_put (pending : PendingAppends) (holder : Address) (n : Nat) (other : Address) :
    (pending.put holder n).get other = if other = holder then n else pending.get other := by
  unfold put get
  split
  case isTrue heq =>
    rw [heq, List.lookup_cons_self, Option.getD_some]
  case isFalse hne =>
    rw [List.lookup_cons, beq_false_of_ne hne]
    exact congrArg (·.getD 0) (pending.lookup_filter hne)

theorem PendingAppends.mem_of_get {pending : PendingAppends} {holder : Address} (h : 0 < pending.get holder) :
    (holder, pending.get holder) ∈ pending := by
  unfold get at h ⊢
  induction pending with
  | nil => exact absurd h (Nat.lt_irrefl 0)
  | cons p pending ih =>
    rw [List.lookup_cons] at h ⊢
    split at h
    case h_1 heq =>
      rw [beq_iff_eq] at heq
      rw [heq]
      exact List.mem_cons_self
    case h_2 heq => exact List.mem_cons_of_mem p (ih h)

section

variable {ctx : Context} {s : BatchStore}

theorem reads_u32 {σ : Type} (n : Nat) : (u32InPlace n : InPlace Context Failure σ Nat).Reads :=
  (InPlace.Reads.require _ _).bind fun _ => .pure _

theorem reads_requireAuth {σ : Type} (who : Address) :
    (requireAuthInPlace who : InPlace Context Failure σ Unit).Reads :=
  InPlace.Reads.ask.bind fun _ => .require _ _

theorem reads_checkOperations (ops : List BatchOperation) (pending : PendingAppends) :
    (checkOperations pending ops).Reads := by
  induction ops generalizing pending with
  | nil => exact .pure _
  | cons op ops ih =>
    cases op with
    | appendAuditEntry holder event =>
      exact (reads_requireAuth holder).bind fun _ => (InPlace.Reads.require _ _).bind fun _ =>
        (reads_u32 _).bind fun _ => ih _
    | setVerificationRateLimit holder limit =>
      exact (reads_requireAuth holder).bind fun _ => (InPlace.Reads.require _ _).bind fun _ => ih _

theorem reads_checkRoom (pending : PendingAppends) : (checkRoom pending).Reads := by
  induction pending with
  | nil => exact .pure _
  | cons p pending ih =>
    exact (InPlace.Reads.look _).bind fun _ => (reads_u32 _).bind fun _ => (InPlace.Reads.require _ _).bind fun _ => ih

theorem reads_checkBatch (ops : List BatchOperation) : (checkBatch ops).Reads :=
  (reads_checkOperations ops _).bind fun _ => reads_checkRoom _

variable {ops : List BatchOperation}

theorem checkOperations_ok {pending pending' : PendingAppends} {t : BatchStore}
    (h : checkOperations pending ops ctx s = (.ok pending', t)) :
    (∀ op ∈ ops, op.Valid) ∧ ∀ holder, pending'.get holder = pending.get holder + appendsTo holder ops := by
  induction ops generalizing pending with
  | nil =>
    cases h
    exact ⟨List.forall_mem_nil _, fun _ => rfl⟩
  | cons op ops ih =>
    cases op with
    | appendAuditEntry holder event =>
      obtain ⟨-, -, h⟩ := (reads_requireAuth holder).bind_ok h
      obtain ⟨u, hvalid, h⟩ := (InPlace.Reads.require _ _).bind_ok h
      obtain ⟨soFar, hsoFar, h⟩ := (reads_u32 _).bind_ok h
      obtain ⟨-, -, hsoFar⟩ := (InPlace.Reads.require _ _).bind_ok hsoFar
      cases hsoFar
      obtain ⟨hrest, hget⟩ := ih h
      have hbounds := InPlace.require_ok hvalid
      refine ⟨List.forall_mem_cons.2 ⟨hbounds, hrest⟩, fun other => ?_⟩
      rw [hget, PendingAppends.get_put, appendsTo]
      by_cases heq : other = holder
      · rw [if_pos heq, if_pos heq.symm, heq]
        omega
      · rw [if_neg heq, if_neg (Ne.symm heq)]
        omega
    | setVerificationRateLimit holder limit =>
      obtain ⟨-, -, h⟩ := (reads_requireAuth holder).bind_ok h
      obtain ⟨u, hvalid, h⟩ := (InPlace.Reads.require _ _).bind_ok h
      obtain ⟨hrest, hget⟩ := ih h
      have hbounds := InPlace.require_ok hvalid
      exact ⟨List.forall_mem_cons.2 ⟨hbounds, hrest⟩, hget⟩

theorem checkRoom_ok {pending : PendingAppends} {t : BatchStore} (h : checkRoom pending ctx s = (.ok (), t)) :
    ∀ p ∈ pending, s.trails.hotEntryCount p.1 + p.2 ≤ maxHotAuditEntries := by
  induction pending with
  | nil => exact List.forall_mem_nil _
  | cons p pending ih =>
    obtain ⟨count, hcount, h⟩ := (InPlace.Reads.look _).bind_ok h
    cases hcount
    obtain ⟨total, htotal, h⟩ := (reads_u32 _).bind_ok h
    obtain ⟨-, -, htotal⟩ := (InPlace.Reads.require _ _).bind_ok htotal
    cases htotal
    obtain ⟨u, hroom, h⟩ := (InPlace.Reads.require _ _).bind_ok h
    exact List.forall_mem_cons.2 ⟨InPlace.require_ok hroom, ih h⟩

/-- The check foresees every failure of the writes. -/
theorem checkBatch_ok {t : BatchStore} (h : checkBatch ops ctx s = (.ok (), t)) :
    (∀ op ∈ ops, op.Valid) ∧ HasRoom s ops := by
  obtain ⟨pending, hpending, h⟩ := (reads_checkOperations ops _).bind_ok h
  obtain ⟨hvalid, hget⟩ := checkOperations_ok hpending
  refine ⟨hvalid, fun holder hpos => ?_⟩
  have hcount : pending.get holder = appendsTo holder ops := by
    rw [hget]
    exact Nat.zero_add _
  rw [← hcount] at hpos ⊢
  exact checkRoom_ok h _ (PendingAppends.mem_of_get hpos)

/-! ## The writes -/

theorem perform_run {op : BatchOperation} (hvalid : op.Valid) (hroom : HasRoom s (op :: ops)) :
    op.perform ctx s = (.ok (), op.apply ctx.now s) := by
  cases op with
  | appendAuditEntry holder event =>
    have hbounds : event ≠ [] ∧ event.length ≤ maxAuditEventBytes := hvalid
    have hspace : (s.trails.credentialAuditTrail holder).length < maxHotAuditEntries := by
      have hbound := hroom holder (by rw [appendsTo, if_pos rfl]; omega)
      rw [appendsTo, if_pos rfl] at hbound
      unfold AuditTrails.hotEntryCount at hbound
      omega
    obtain ⟨n, hrun⟩ : ∃ n, appendInPlace holder event ctx s.trails =
        (.ok n, (BatchOperation.apply ctx.now s (.appendAuditEntry holder event)).trails) := by
      unfold appendInPlace validateAuditEventInPlace
      rw [InPlace.run_require_bind, if_pos hbounds, InPlace.run_ask_bind, InPlace.run_look_bind,
        InPlace.run_require_bind, if_pos hspace, InPlace.run_alter_bind, InPlace.run_pure]
      exact ⟨_, rfl⟩
    exact InPlace.run_bind_ok (InPlace.run_zoom hrun) _
  | setVerificationRateLimit holder limit =>
    have hbounds : limit ≠ 0 ∧ limit ≤ maxVerificationLimit := hvalid
    obtain ⟨config, hrun⟩ : ∃ config, setLimitInPlace holder limit ctx s.rates =
        (.ok config, (BatchOperation.apply ctx.now s (.setVerificationRateLimit holder limit)).rates) := by
      unfold setLimitInPlace validateVerificationLimitInPlace
      rw [InPlace.run_require_bind, if_pos hbounds, InPlace.run_ask_bind, InPlace.run_look_bind,
        InPlace.run_alter_bind, InPlace.run_alter_bind, InPlace.run_pure]
      exact ⟨_, rfl⟩
    exact InPlace.run_bind_ok (InPlace.run_zoom hrun) _

/-- An append uses up the room it was counted for. -/
theorem HasRoom.apply {op : BatchOperation} (hroom : HasRoom s (op :: ops)) (now : Nat) :
    HasRoom (op.apply now s) ops := by
  intro holder hpos
  cases op with
  | appendAuditEntry holder' event =>
    have hbound := hroom holder (by rw [appendsTo]; omega)
    rw [appendsTo] at hbound
    by_cases heq : holder' = holder
    · cases heq
      rw [if_pos rfl] at hbound
      simp only [BatchOperation.apply, AuditTrails.hotEntryCount, update_self, List.length_append,
        List.length_singleton]
      unfold AuditTrails.hotEntryCount at hbound
      omega
    · rw [if_neg heq] at hbound
      simp only [BatchOperation.apply, AuditTrails.hotEntryCount, update_of_ne (Ne.symm heq)]
      unfold AuditTrails.hotEntryCount at hbound
      omega
  | setVerificationRateLimit holder' limit => exact hroom holder hpos

theorem applyOperations_run (hvalid : ∀ op ∈ ops, op.Valid) (hroom : HasRoom s ops) :
    applyOperations ops ctx s = (.ok (), ops.foldl (BatchOperation.apply ctx.now) s) := by
  induction ops generalizing s with
  | nil => rfl
  | cons op ops ih =>
    rw [List.forall_mem_cons] at hvalid
    have hstep : op.perform ctx s = (.ok (), op.apply ctx.now s) := perform_run hvalid.1 hroom
    rw [applyOperations, InPlace.run_bind_ok hstep]
    exact ih hvalid.2 (hroom.apply ctx.now)

/-- Every write of the second phase succeeds, each from where the ones before it have left the state. -/
theorem perform_runs {written rest : List BatchOperation} {op : BatchOperation}
    (hvalid : ∀ op' ∈ written ++ op :: rest, op'.Valid) (hroom : HasRoom s (written ++ op :: rest)) :
    op.perform ctx (written.foldl (BatchOperation.apply ctx.now) s) =
      (.ok (), op.apply ctx.now (written.foldl (BatchOperation.apply ctx.now) s)) := by
  induction written generalizing s with
  | nil => exact perform_run (hvalid op List.mem_cons_self) hroom
  | cons op' written ih => exact ih (List.forall_mem_cons.1 hvalid).2 (hroom.apply ctx.now)

/-- The operations applied in order, and the batch marked. -/
def CredentialBatch.executed (batch : CredentialBatch) (batchId now : Nat) (s : BatchStore) : BatchStore :=
  let t := batch.operations.foldl (BatchOperation.apply now) s
  { t with batches := { t.batches with
    credentialBatch :=
      update t.batches.credentialBatch batchId (some { batch with status := .executed, executedAt := now }) } }

/-- Executing a batch applies it whole, or fails and has written nothing. -/
theorem executeInPlace_cases (ctx : Context) (s : BatchStore) (batchId : Nat) :
    (∃ e, executeInPlace batchId ctx s = (.error e, s)) ∨
      ∃ batch, s.batches.credentialBatch batchId = some batch ∧ batch.status = .pending ∧
        executeInPlace batchId ctx s = (.ok (), batch.executed batchId ctx.now s) := by
  unfold executeInPlace
  rw [InPlace.run_look_bind]
  cases hstored : s.batches.credentialBatch batchId with
  | none => exact .inl ⟨_, rfl⟩
  | some batch =>
    cases hstatus : batch.status with
    | executed =>
      refine .inl ⟨.error .batchAlreadyExecuted, ?_⟩
      rw [InPlace.run_orFail_bind, InPlace.run_require_bind, hstatus,
        if_neg (fun h => h rfl)]
    | pending =>
      rw [InPlace.run_orFail_bind, InPlace.run_require_bind, hstatus,
        if_pos (fun h => by cases h)]
      have hsame := reads_checkBatch batch.operations ctx s
      cases hcheck : checkBatch batch.operations ctx s with
      | mk r t =>
        rw [hcheck] at hsame
        cases (hsame : t = s)
        cases r with
        | error e => exact .inl ⟨e, InPlace.run_bind_error hcheck _⟩
        | ok u =>
          obtain ⟨hvalid, hroom⟩ := checkBatch_ok hcheck
          refine .inr ⟨batch, rfl, hstatus, ?_⟩
          rw [InPlace.run_bind_ok hcheck, InPlace.run_bind_ok (applyOperations_run hvalid hroom)]
          rfl

end

/-! ## Runs -/

/-- The calls on batches, and the other calls on what they write. -/
inductive BatchOp where
  | createBatchOperation (operations : List BatchOperation)
  | executeBatchOperation (batchId : Nat)
  | auditTrail (op : AuditOp)
  | rateLimit (op : RateLimitOp)

def BatchOp.run (sha256 : List UInt8 → Digest) : BatchOp → Contract BatchStore Unit
  | .createBatchOperation operations => discard (monadLift (QuorumCredit.createBatchOperation operations))
  | .executeBatchOperation batchId => QuorumCredit.executeBatchOperation batchId
  | .auditTrail op => monadLift (op.run sha256)
  | .rateLimit op => monadLift op.run

def credentialBatches (sha256 : List UInt8 → Digest) :
    Component World (List Address) Context Failure BatchStore BatchOp where
  run := BatchOp.run sha256
  context w signers := { w with signers }
  drift w s w' s' := w.now ≤ w'.now ∧ w'.now ≤ u64Max ∧ s' = s

abbrev BatchHistory := List (Situated World BatchStore × Event World (List Address) BatchStore BatchOp)

section

variable {sha256 : List UInt8 → Digest}

/-- The batch a call executes, if it goes through. -/
def executes (sha256 : List UInt8 → Digest) (s : Situated World BatchStore)
    (e : Event World (List Address) BatchStore BatchOp) : Option Nat :=
  match (credentialBatches sha256).done s e with
  | some (.executeBatchOperation batchId, _) => some batchId
  | _ => none

/-- The batches executed in the history, newest first. -/
def executedBatches (sha256 : List UInt8 → Digest) (h : BatchHistory) : List Nat := usedKeys (executes sha256) h

/-- What a call does to the batches. -/
inductive BatchEffect (b : Batches) : BatchOp → Batches → Prop
  | created {operations batch} (hpending : batch.status = .pending) :
    BatchEffect b (.createBatchOperation operations)
      { credentialBatchCounter := b.credentialBatchCounter + 1
        credentialBatch := update b.credentialBatch (b.credentialBatchCounter + 1) (some batch) }
  | executed {batchId batch batch'} (hstored : b.credentialBatch batchId = some batch)
    (hpending : batch.status = .pending) (hexecuted : batch'.status = .executed) :
    BatchEffect b (.executeBatchOperation batchId)
      { b with credentialBatch := update b.credentialBatch batchId (some batch') }
  | auditTrail {op} : BatchEffect b (.auditTrail op) b
  | rateLimit {op} : BatchEffect b (.rateLimit op) b

theorem apply_batches (now : Nat) (ops : List BatchOperation) (s : BatchStore) :
    (ops.foldl (BatchOperation.apply now) s).batches = s.batches := by
  induction ops generalizing s with
  | nil => rfl
  | cons op ops ih =>
    refine (ih _).trans ?_
    cases op with
    | appendAuditEntry => rfl
    | setVerificationRateLimit => rfl

theorem yields_validateOperations {σ : Type} (ops : List BatchOperation) (ctx : Context) (s : σ) (Q : Unit → σ → Prop)
    (h : Q () s) : Yields (validateOperations ops) ctx s Q := by
  induction ops with
  | nil => exact (yields_pure _ _ _ _).2 h
  | cons op ops ih =>
    rw [validateOperations, yields_bind]
    cases op with
    | appendAuditEntry holder event => exact (yields_require _ _ _ _ _).2 fun _ => ih
    | setVerificationRateLimit holder limit => exact (yields_require _ _ _ _ _).2 fun _ => ih

theorem batches_of_exec {s : Situated World BatchStore} {signers : List Address} {op : BatchOp} {t : BatchStore}
    (he : (credentialBatches sha256).exec s signers op = some t) : BatchEffect s.store.batches op t.batches := by
  refine Component.exec_yields (Q := fun t => BatchEffect s.store.batches op t.batches) ?_ he
  cases op with
  | createBatchOperation operations =>
    simp only [credentialBatches, BatchOp.run, createBatchOperation, discard, yields_parts, yields_steps, yields_u64]
    intro _ _
    refine yields_validateOperations operations _ _ _ ?_
    intro _
    exact .created rfl
  | executeBatchOperation batchId =>
    intro u t hrun
    change (executeInPlace batchId).commit _ _ = _ at hrun
    rw [InPlace.commit_ok] at hrun
    rcases executeInPlace_cases _ s.store batchId with ⟨e, hfail⟩ | ⟨batch, hstored, hpending, hrun'⟩
    · rw [hfail] at hrun
      cases hrun
    · rw [hrun'] at hrun
      cases hrun
      simp only [CredentialBatch.executed, apply_batches]
      exact .executed hstored hpending rfl
  | auditTrail op =>
    simp only [credentialBatches, BatchOp.run, yields_parts]
    exact (yields_true _ _ _).mono fun _ _ _ => .auditTrail
  | rateLimit op =>
    simp only [credentialBatches, BatchOp.run, yields_parts]
    exact (yields_true _ _ _).mono fun _ _ _ => .rateLimit

/-- No batch is stored under an id to come. -/
def Batches.Numbered (b : Batches) : Prop :=
  ∀ batchId batch, b.credentialBatch batchId = some batch → batchId ≤ b.credentialBatchCounter

theorem BatchEffect.numbered {b b' : Batches} {op : BatchOp} (he : BatchEffect b op b') (h : b.Numbered) :
    b'.Numbered := by
  intro id stored hstored
  cases he with
  | created hpending =>
    simp only at hstored ⊢
    by_cases heq : id = b.credentialBatchCounter + 1
    · omega
    · rw [update_of_ne heq] at hstored
      exact (h id stored hstored).trans (Nat.le_succ _)
  | @executed batchId batch batch' hbatch hpending hexecuted =>
    simp only at hstored ⊢
    by_cases heq : id = batchId
    · rw [heq]
      exact h batchId batch hbatch
    · rw [update_of_ne heq] at hstored
      exact h id stored hstored
  | auditTrail => exact h id stored hstored
  | rateLimit => exact h id stored hstored

/-- The batch is marked executed. -/
def Batches.Done (b : Batches) (batchId : Nat) : Prop :=
  ∃ batch, b.credentialBatch batchId = some batch ∧ batch.status = .executed

theorem BatchEffect.done {b b' : Batches} {op : BatchOp} (he : BatchEffect b op b') (h : b.Numbered) {id : Nat}
    (hdone : b.Done id) : b'.Done id := by
  obtain ⟨stored, hstored, hstatus⟩ := hdone
  cases he with
  | created hpending =>
    have hle := h id stored hstored
    exact ⟨stored, (update_of_ne (by omega) _ _).trans hstored, hstatus⟩
  | @executed batchId batch batch' hbatch hpending hexecuted =>
    by_cases heq : id = batchId
    · rw [heq] at hstored
      rw [hstored] at hbatch
      cases hbatch
      rw [hstatus] at hpending
      cases hpending
    · exact ⟨stored, (update_of_ne heq _ _).trans hstored, hstatus⟩
  | auditTrail => exact ⟨stored, hstored, hstatus⟩
  | rateLimit => exact ⟨stored, hstored, hstatus⟩

theorem of_executes {s : Situated World BatchStore} {e : Event World (List Address) BatchStore BatchOp} {id : Nat}
    (h : executes sha256 s e = some id) :
    ∃ signers t, e = .call signers (.executeBatchOperation id) ∧
      (credentialBatches sha256).exec s signers (.executeBatchOperation id) = some t := by
  unfold executes at h
  split at h
  case h_1 batchId t hdone =>
    cases h
    obtain ⟨signers, rfl, he⟩ := Component.of_done hdone
    exact ⟨signers, t, rfl, he⟩
  case h_2 => cases h

/-- An executed batch was pending, is marked, and stays marked. -/
theorem batches_marked :
    Marks (fun s e s' => s.store.batches.Numbered ∧ (credentialBatches sha256).Step s e s') (executes sha256)
      (fun s id => s.store.batches.Done id) where
  fresh := by
    rintro s e s' id ⟨-, -⟩ huse ⟨stored, hstored, hstatus⟩
    obtain ⟨signers, t, -, he⟩ := of_executes huse
    have heffect := batches_of_exec he
    generalize t.batches = b at heffect
    cases heffect with
    | executed hbatch hpending _ =>
      rw [hstored] at hbatch
      cases hbatch
      rw [hstatus] at hpending
      cases hpending
  mark := by
    rintro s e s' id ⟨-, hst⟩ huse
    obtain ⟨signers, t, rfl, he⟩ := of_executes huse
    cases hst with
    | call =>
      rw [Component.after, he]
      have heffect := batches_of_exec he
      simp only [Option.getD_some]
      generalize t.batches = b at heffect
      cases heffect with
      | @executed _ batch batch' _ _ hexecuted => exact ⟨batch', update_self _ _ _, hexecuted⟩
  keep := by
    rintro s e s' id ⟨hnumbered, hst⟩ hdone
    rcases hst.cases with ⟨signers, op, rfl, he, -⟩ | ⟨-, rfl⟩ | ⟨-, -, -, hstore⟩
    · exact (batches_of_exec he).done hnumbered hdone
    · exact hdone
    · rw [hstore]
      exact hdone

theorem Batches.numbered_step {s s' : Situated World BatchStore} {e : Event World (List Address) BatchStore BatchOp}
    (h : s.store.batches.Numbered) (hst : (credentialBatches sha256).Step s e s') : s'.store.batches.Numbered := by
  rcases hst.cases with ⟨signers, op, rfl, he, -⟩ | ⟨-, rfl⟩ | ⟨-, -, -, hstore⟩
  · exact (batches_of_exec he).numbered h
  · exact h
  · rw [hstore]
    exact h

end

/-- No batch is recorded yet; trails and limits are as they are. -/
def batchStart (world : World) (trails : AuditTrails) (rates : RateLimits) : Situated World BatchStore :=
  ⟨world, { batches := .empty, trails, rates }⟩

/-- Once the check has succeeded, every write of the second phase does; so a batch
executed in place is applied whole and marked, or fails with nothing written; and
in every run each batch is executed at most once. -/
theorem batches_atomic (sha256 : List UInt8 → Digest) :
    (∀ (ctx : Context) (s : BatchStore) (written rest : List BatchOperation) (op : BatchOperation),
      (checkBatch (written ++ op :: rest) ctx s).1 = .ok () →
        op.perform ctx (written.foldl (BatchOperation.apply ctx.now) s) =
          (.ok (), op.apply ctx.now (written.foldl (BatchOperation.apply ctx.now) s))) ∧
    (∀ (ctx : Context) (s : BatchStore) (batchId : Nat),
      (∃ e, executeInPlace batchId ctx s = (.error e, s)) ∨
        ∃ batch, s.batches.credentialBatch batchId = some batch ∧ batch.status = .pending ∧
          executeInPlace batchId ctx s = (.ok (), batch.executed batchId ctx.now s)) ∧
    ∀ world trails rates h s,
      Run (credentialBatches sha256).Step (batchStart world trails rates) h s → (executedBatches sha256 h).Nodup := by
  refine ⟨fun ctx s written rest op hcheck => ?_, executeInPlace_cases, fun world trails rates h s hr => ?_⟩
  · have hok : checkBatch (written ++ op :: rest) ctx s = (.ok (), (checkBatch (written ++ op :: rest) ctx s).2) :=
      Prod.ext hcheck rfl
    obtain ⟨hvalid, hroom⟩ := checkBatch_ok hok
    exact perform_runs hvalid hroom
  · have hempty : (batchStart world trails rates).store.batches.Numbered := fun _ _ h => by cases h
    have hwithin := hr.within (I := fun s => s.store.batches.Numbered) hempty fun _ _ _ h hst =>
      Batches.numbered_step h hst
    exact batches_marked.nodup hwithin

/-- An event for the trail of account 10, and a limit for it. -/
def eventAndLimit : List BatchOperation := [.appendAuditEntry 10 [1], .setVerificationRateLimit 10 5]

/-- The batch of the two is created, executed, and executed again in vain. -/
def batchCalls : List (List Address × BatchOp) :=
  [([10], .createBatchOperation eventAndLimit), ([10], .executeBatchOperation 1), ([10], .executeBatchOperation 1)]

def emptyBatches : Situated World BatchStore := batchStart sampleWorld .empty ⟨fun _ => none, fun _ => none⟩

theorem batches_atomic_pair :
    let component := credentialBatches fun _ => .replicate 32 0
    let ctx : Context := { sampleWorld with signers := [10] }
    let s := (component.play emptyBatches (batchCalls.take 1)).store
    let written := BatchOperation.apply ctx.now s (.appendAuditEntry 10 [1])
    BatchOperation.perform (.setVerificationRateLimit 10 5) ctx written =
        (.ok (), BatchOperation.apply ctx.now written (.setVerificationRateLimit 10 5)) ∧
      (∃ batch, s.batches.credentialBatch 1 = some batch ∧
        executeInPlace 1 ctx s = (.ok (), batch.executed 1 ctx.now s)) ∧
      executedBatches (fun _ => .replicate 32 0) (component.trace emptyBatches [] batchCalls) = [1] ∧
      (executedBatches (fun _ => .replicate 32 0) (component.trace emptyBatches [] batchCalls)).Nodup := by
  intro component ctx s written
  obtain ⟨hwrites, hexecutes, honce⟩ := batches_atomic fun _ => .replicate 32 0
  have hchecks : (checkBatch eventAndLimit ctx s).1 = .ok () := by decide +kernel
  have hruns : (executeInPlace 1 ctx s).1 = .ok () := by decide +kernel
  refine ⟨hwrites ctx s [.appendAuditEntry 10 [1]] [] _ hchecks, ?_, by decide +kernel, ?_⟩
  · rcases hexecutes ctx s 1 with ⟨e, he⟩ | ⟨batch, hbatch, -, he⟩
    · rw [he] at hruns
      cases hruns
    · exact ⟨batch, hbatch, he⟩
  · exact honce _ _ _ _ _ (component.run_play .nil batchCalls)

end QuorumCredit
