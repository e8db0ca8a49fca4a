import QuorumCredit.Frames
import QuorumCredit.Host.Component
/-!
# Staking pools

`staking_pool.rs`: capital staked into pools, which yield and losses are spread
over by an accumulator. A pool keeps the yield per staked token so far, scaled by
10^12; a position keeps the value it was last brought up to date with, and is
owed the difference times its amount. No other entry point writes these entries.
-/

open Host Function

namespace QuorumCredit

def yieldPerTokenPrecision : Int := 1000000000000
def defaultStakingPoolApyBps : Nat := 500
def stakingUnstakeDelaySecs : Nat := 24 * 60 * 60
def secsPerYear : Int := 365 * 24 * 60 * 60

inductive StakingPoolStatus where
  | active | draining | closed
deriving DecidableEq, Repr

structure StakingPool where
  poolId : Nat
  token : Address
  totalStaked : Int
  yieldPerTokenScaled : Int
  currentApyBps : Nat
  totalYieldDistributed : Int
  lastYieldTimestamp : Nat
  status : StakingPoolStatus
  createdAt : Nat
deriving DecidableEq, Repr

structure StakerPosition where
  staker : Address
  amount : Int
  yieldSnapshotScaled : Int
  pendingRewards : Int
  lastActionTimestamp : Nat
  pendingUnstake : Bool
  queuedUnstakeAmount : Int
deriving DecidableEq, Repr

/-- The storage entries of the staking pools. -/
structure StakingPools where
  stakingPool : Nat → Option StakingPool
  stakingPoolCounter : Nat
  stakingPoolStake : Nat → Address → Option StakerPosition

def StakingPools.empty : StakingPools :=
  { stakingPool := fun _ => none, stakingPoolCounter := 0, stakingPoolStake := fun _ _ => none }

/-- These entries, beside what the entry points share with the rest of the contract. -/
structure StakingStore where
  access : Access
  bank : Ledger
  yieldReserve : Int
  pools : StakingPools

instance : Part StakingStore Access where
  get := StakingStore.access
  set a s := { s with access := a }
instance : Part StakingStore (Bank Address Address) where
  get := StakingStore.bank
  set b s := { s with bank := b }
instance : Part StakingStore StakingPools where
  get := StakingStore.pools
  set g s := { s with pools := g }

/-! ## Records -/

namespace StakingPools

def loadPosition (g : StakingPools) (poolId : Nat) (staker : Address) : StakerPosition :=
  (g.stakingPoolStake poolId staker).getD
    { staker, amount := 0, yieldSnapshotScaled := 0, pendingRewards := 0, lastActionTimestamp := 0
      pendingUnstake := false, queuedUnstakeAmount := 0 }

/-- A pool is stored under its own id. -/
def savePool (g : StakingPools) (pool : StakingPool) : StakingPools :=
  { g with stakingPool := update g.stakingPool pool.poolId (some pool) }

/-- A position is stored under its own staker. -/
def savePosition (g : StakingPools) (poolId : Nat) (position : StakerPosition) : StakingPools :=
  { g with
    stakingPoolStake :=
      update g.stakingPoolStake poolId (update (g.stakingPoolStake poolId) position.staker (some position)) }

end StakingPools

def loadPool (poolId : Nat) : Contract StakingPools StakingPool := do
  orFail (← look (·.stakingPool poolId)) (.error .stakingPoolNotFound)

def onPools (f : StakingPools → StakingPools) : Contract StakingPools Unit := alter f

def nextPoolId : Contract StakingPools Nat := do
  let id ← look (·.stakingPoolCounter)
  let next ← u64 .arithmetic (id + 1)
  onPools fun g => { g with stakingPoolCounter := next }
  return next

/-- What the position has accrued since its snapshot, truncated. -/
def accrued (pool : StakingPool) (position : StakerPosition) : Int :=
  (mulOrZero (pool.yieldPerTokenScaled - position.yieldSnapshotScaled) position.amount).tdiv yieldPerTokenPrecision

def harvest (pool : StakingPool) (position : StakerPosition) : Contract StakingPools StakerPosition := do
  if 0 < position.amount then do
    let _ ← i128 .arithmetic (pool.yieldPerTokenScaled - position.yieldSnapshotScaled)
    return { position with
      pendingRewards := satI128 (position.pendingRewards + accrued pool position)
      yieldSnapshotScaled := pool.yieldPerTokenScaled }
  else return { position with yieldSnapshotScaled := pool.yieldPerTokenScaled }

/-! ## Entry points -/

def createStakingPool (adminSigners : List Address) (token : Address) : Contract StakingStore Nat := do
  requireNotPaused
  requireAdminApproval adminSigners
  requireAllowedToken token
  let poolId ← nextPoolId
  let ctx ← ask
  onPools (·.savePool
    { poolId, token, totalStaked := 0, yieldPerTokenScaled := 0, currentApyBps := defaultStakingPoolApyBps
      totalYieldDistributed := 0, lastYieldTimestamp := ctx.now, status := .active, createdAt := ctx.now })
  return poolId

def stakeCapital (poolId : Nat) (staker : Address) (amount : Int) : Contract StakingStore Int := do
  requireAuth staker
  requireNotPaused
  require (0 < amount) (.error .insufficientFunds)
  let pool ← loadPool poolId
  require (pool.status = .active) (.error .stakingPoolNotActive)
  let position ← look (·.pools.loadPosition poolId staker)
  let position ← harvest pool position
  collect pool.token staker amount
  let staked ← i128 (.error .stakeOverflow) (position.amount + amount)
  let ctx ← ask
  onPools (·.savePosition poolId { position with amount := staked, lastActionTimestamp := ctx.now })
  onPools (·.savePool { pool with totalStaked := satI128 (pool.totalStaked + amount) })
  return staked

def queueUnstake (poolId : Nat) (staker : Address) (amount : Int) : Contract StakingStore Nat := do
  requireAuth staker
  requireNotPaused
  require (0 < amount) (.error .insufficientFunds)
  let pool ← loadPool poolId
  require (pool.status ≠ .draining) (.error .stakingPoolNotActive)
  let position ← look (·.pools.loadPosition poolId staker)
  let position ← harvest pool position
  require (amount ≤ position.amount) (.error .insufficientFunds)
  require (position.pendingUnstake = false) (.error .withdrawalAlreadyQueued)
  let ctx ← ask
  onPools (·.savePosition poolId
    { position with pendingUnstake := true, queuedUnstakeAmount := amount, lastActionTimestamp := ctx.now })
  u64 .arithmetic (ctx.now + stakingUnstakeDelaySecs)

/-- Pays the queued amount and the pending rewards, which a loss may have made
negative; nothing is paid where they do not leave a positive sum. -/
def processUnstake (poolId : Nat) (staker : Address) : Contract StakingStore Int := do
  requireAuth staker
  requireNotPaused
  let ctx ← ask
  let pool ← loadPool poolId
  let position ← look (·.pools.loadPosition poolId staker)
  require (position.pendingUnstake = true) (.error .withdrawalNotQueued)
  require (stakingUnstakeDelaySecs ≤ ctx.now - position.lastActionTimestamp) (.error .timelockNotReady)
  let position ← harvest pool position
  let unstakeAmount := position.queuedUnstakeAmount
  let totalReturn := satI128 (unstakeAmount + position.pendingRewards)
  if 0 < totalReturn then pay pool.token staker totalReturn else pure ()
  onPools (·.savePosition poolId
    { position with
      amount := satI128 (position.amount - unstakeAmount), pendingRewards := 0, pendingUnstake := false
      queuedUnstakeAmount := 0, lastActionTimestamp := ctx.now })
  onPools (·.savePool { pool with totalStaked := satI128 (pool.totalStaked - unstakeAmount) })
  return totalReturn

def claimYield (poolId : Nat) (staker : Address) : Contract StakingStore Int := do
  requireAuth staker
  requireNotPaused
  let ctx ← ask
  let pool ← loadPool poolId
  let position ← look (·.pools.loadPosition poolId staker)
  let position ← harvest pool position
  let rewards := position.pendingRewards
  require (0 < rewards) (.error .insufficientFunds)
  pay pool.token staker rewards
  onPools (·.savePosition poolId { position with pendingRewards := 0, lastActionTimestamp := ctx.now })
  return rewards

/-- The yield a year of `yieldAmount` in the time since the last one makes, in basis points. -/
def annualisedApyBps (pool : StakingPool) (now : Nat) (yieldAmount : Int) : Nat :=
  let elapsedSecs := now - pool.lastYieldTimestamp
  if 0 < elapsedSecs then
    let annualised := ((satI128 (satI128 (yieldAmount * 10000) * secsPerYear)).tdiv elapsedSecs).tdiv pool.totalStaked
    (min annualised u32Max).toNat
  else pool.currentApyBps

def distributeYield (adminSigners : List Address) (poolId : Nat) (yieldAmount : Int) : Contract StakingStore Unit := do
  requireNotPaused
  requireAdminApproval adminSigners
  require (0 < yieldAmount) (.error .invalidAmount)
  let pool ← loadPool poolId
  require (pool.status = .active) (.error .stakingPoolNotActive)
  require (0 < pool.totalStaked) (.error .insufficientFunds)
  let reserve ← look (·.yieldReserve)
  require (yieldAmount ≤ reserve) (.error .insufficientYieldReserve)
  alter fun s : StakingStore => { s with yieldReserve := reserve - yieldAmount }
  let product ← i128 (.error .arithmeticOverflow) (yieldAmount * yieldPerTokenPrecision)
  let delta := product.tdiv pool.totalStaked
  let ctx ← ask
  onPools (·.savePool
    { pool with
      yieldPerTokenScaled := satI128 (pool.yieldPerTokenScaled + delta)
      totalYieldDistributed := satI128 (pool.totalYieldDistributed + yieldAmount)
      currentApyBps := annualisedApyBps pool ctx.now yieldAmount
      lastYieldTimestamp := ctx.now })

/-- Takes the loss off the pool's total and off the accumulator; the amounts of
the positions stay. -/
def applyStakingPoolLoss (adminSigners : List Address) (poolId : Nat) (lossAmount : Int) :
    Contract StakingStore Unit := do
  requireNotPaused
  requireAdminApproval adminSigners
  require (0 < lossAmount) (.error .invalidAmount)
  let pool ← loadPool poolId
  require (pool.status ≠ .closed) (.error .stakingPoolNotActive)
  require (0 < pool.totalStaked) (.error .insufficientFunds)
  require (lossAmount ≤ pool.totalStaked) (.error .insufficientFunds)
  let product ← i128 (.error .arithmeticOverflow) (lossAmount * yieldPerTokenPrecision)
  let lossDelta := product.tdiv pool.totalStaked
  onPools (·.savePool
    { pool with
      yieldPerTokenScaled := satI128 (pool.yieldPerTokenScaled - lossDelta)
      totalStaked := satI128 (pool.totalStaked - lossAmount) })

def closeStakingPool (adminSigners : List Address) (poolId : Nat) : Contract StakingStore Unit := do
  requireNotPaused
  requireAdminApproval adminSigners
  let pool ← loadPool poolId
  require (pool.status ≠ .closed) (.error .invalidStateTransition)
  onPools (·.savePool { pool with status := .closed })

inductive StakingOp where
  | createStakingPool (adminSigners : List Address) (token : Address)
  | stakeCapital (poolId : Nat) (staker : Address) (amount : Int)
  | queueUnstake (poolId : Nat) (staker : Address) (amount : Int)
  | processUnstake (poolId : Nat) (staker : Address)
  | claimYield (poolId : Nat) (staker : Address)
  | distributeYield (adminSigners : List Address) (poolId : Nat) (yieldAmount : Int)
  | applyStakingPoolLoss (adminSigners : List Address) (poolId : Nat) (lossAmount : Int)
  | closeStakingPool (adminSigners : List Address) (poolId : Nat)

def StakingOp.run : StakingOp → Contract StakingStore Unit
  | .createStakingPool signers token => discard (QuorumCredit.createStakingPool signers token)
  | .stakeCapital poolId staker amount => discard (QuorumCredit.stakeCapital poolId staker amount)
  | .queueUnstake poolId staker amount => discard (QuorumCredit.queueUnstake poolId staker amount)
  | .processUnstake poolId staker => discard (QuorumCredit.processUnstake poolId staker)
  | .claimYield poolId staker => discard (QuorumCredit.claimYield poolId staker)
  | .distributeYield signers poolId amount => QuorumCredit.distributeYield signers poolId amount
  | .applyStakingPoolLoss signers poolId amount => QuorumCredit.applyStakingPoolLoss signers poolId amount
  | .closeStakingPool signers poolId => QuorumCredit.closeStakingPool signers poolId

/-- The staking pools as a part of the contract: the other entry points may change
the world, the pause state, the money and the yield reserve. -/
def stakingPools : Component World (List Address) Context Failure StakingStore StakingOp where
  run := StakingOp.run
  context w signers := { w with signers }
  drift w s w' s' := w.now ≤ w'.now ∧ w'.contract = w.contract ∧ s'.pools = s.pools

/-- No pool created yet. -/
def stakingStart (world : World) (access : Access) (bank : Ledger) (yieldReserve : Int) : Situated World StakingStore :=
  ⟨world, ⟨access, bank, yieldReserve, .empty⟩⟩

end QuorumCredit
