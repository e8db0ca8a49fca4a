import QuorumCredit.Frames
import QuorumCredit.Host.Component
/-!
# Liquidity farming

`liquidity_farming.rs`: providers add liquidity to a pool and share its reward rate
by what they hold. A position is settled when its provider makes a call, at the
total of the pool of that moment. No tokens are moved ("in production"), and no
other module uses these entries.
-/

open Host Function

namespace QuorumCredit

structure LiquidityFarmPool where
  poolId : Nat
  token : Address
  totalLiquidity : Int
  totalRewards : Int
  rewardRate : Int
  createdAt : Nat
  currentSeason : Nat
  seasonMultiplier : Nat
  active : Bool
deriving DecidableEq, Repr

structure FarmingPosition where
  lpProvider : Address
  poolId : Nat
  liquidityAmount : Int
  stakeTimestamp : Nat
  lastClaimTime : Nat
  pendingRewards : Int
  totalRewardsClaimed : Int
deriving DecidableEq, Repr

/-- The storage entries of the module. -/
structure Farms where
  farmPool : Nat → Option LiquidityFarmPool
  farmingPosition : Nat → Address → Option FarmingPosition

def loadFarmPool (poolId : Nat) : Contract Farms LiquidityFarmPool := do
  orFail (← look (·.farmPool poolId)) (.error .invalidAmount)

def saveFarmPool (poolId : Nat) (pool : LiquidityFarmPool) : Contract Farms Unit :=
  alter fun g => { g with farmPool := update g.farmPool poolId (some pool) }

def loadFarmingPosition (poolId : Nat) (provider : Address) : Contract Farms FarmingPosition := do
  orFail (← look (·.farmingPosition poolId provider)) (.error .invalidAmount)

def setFarmingPosition (poolId : Nat) (provider : Address) (position : Option FarmingPosition) : Contract Farms Unit :=
  alter fun g =>
    { g with
      farmingPosition := update g.farmingPosition poolId (update (g.farmingPosition poolId) provider position) }

/-! ## Rewards -/

/-- What a position of that liquidity earns in that time. -/
def rewardAllocation (pool : LiquidityFarmPool) (liquidityAmount : Int) (timeElapsed : Nat) : Contract Farms Int :=
  if 0 < pool.totalLiquidity then do
    let baseReward ← i128 .arithmetic (pool.rewardRate * timeElapsed)
    let product ← i128 .arithmetic (baseReward * liquidityAmount)
    let scaled ← i128 .arithmetic (product.tdiv pool.totalLiquidity * pool.seasonMultiplier)
    return scaled.tdiv 1000
  else return 0

def claimFarmingRewardsInternal (position : FarmingPosition) (pool : LiquidityFarmPool) (now : Nat) :
    Contract Farms FarmingPosition :=
  if now - position.lastClaimTime = 0 then return position
  else do
    let allocation ← rewardAllocation pool position.liquidityAmount (now - position.lastClaimTime)
    return { position with pendingRewards := satI128 (position.pendingRewards + allocation), lastClaimTime := now }

/-! ## Entry points -/

/-- The position with the liquidity added, settled before it if there was one. -/
def depositedPosition (provider : Address) (poolId : Nat) (liquidityAmount : Int) (pool : LiquidityFarmPool)
    (now : Nat) (existing : Option FarmingPosition) : Contract Farms FarmingPosition :=
  match existing with
  | some pos => do
    let pos ← claimFarmingRewardsInternal pos pool now
    return { pos with liquidityAmount := satI128 (pos.liquidityAmount + liquidityAmount) }
  | none =>
    return { lpProvider := provider, poolId, liquidityAmount, stakeTimestamp := now, lastClaimTime := now
             pendingRewards := 0, totalRewardsClaimed := 0 }

def addLiquidity (provider : Address) (poolId : Nat) (liquidityAmount : Int) : Contract Farms Unit := do
  requireAuth provider
  require (0 < liquidityAmount) (.error .invalidAmount)
  let pool ← loadFarmPool poolId
  require (pool.active = true) (.error .contractPaused)
  let ctx ← ask
  let existing ← look (·.farmingPosition poolId provider)
  let position ← depositedPosition provider poolId liquidityAmount pool ctx.now existing
  saveFarmPool poolId { pool with totalLiquidity := satI128 (pool.totalLiquidity + liquidityAmount) }
  setFarmingPosition poolId provider (some position)

def removeLiquidity (provider : Address) (poolId : Nat) (amountToWithdraw : Int) : Contract Farms Unit := do
  requireAuth provider
  require (0 < amountToWithdraw) (.error .invalidAmount)
  let pool ← loadFarmPool poolId
  let stored ← loadFarmingPosition poolId provider
  require (amountToWithdraw ≤ stored.liquidityAmount) (.error .insufficientFunds)
  let ctx ← ask
  let position ← claimFarmingRewardsInternal stored pool ctx.now
  let liquidityAmount := satI128 (position.liquidityAmount - amountToWithdraw)
  saveFarmPool poolId { pool with totalLiquidity := satI128 (pool.totalLiquidity - amountToWithdraw) }
  -- a position with nothing left is removed, whatever is pending
  setFarmingPosition poolId provider (if 0 < liquidityAmount then some { position with liquidityAmount } else none)

def claimFarmingRewards (provider : Address) (poolId : Nat) : Contract Farms Int := do
  requireAuth provider
  let pool ← loadFarmPool poolId
  let stored ← loadFarmingPosition poolId provider
  let ctx ← ask
  let position ← claimFarmingRewardsInternal stored pool ctx.now
  setFarmingPosition poolId provider (some { position with
    pendingRewards := 0, totalRewardsClaimed := satI128 (position.totalRewardsClaimed + position.pendingRewards) })
  return position.pendingRewards

def compoundRewards (provider : Address) (poolId : Nat) : Contract Farms Unit := do
  requireAuth provider
  let pool ← loadFarmPool poolId
  let stored ← loadFarmingPosition poolId provider
  let ctx ← ask
  let position ← claimFarmingRewardsInternal stored pool ctx.now
  let compoundAmount := position.pendingRewards
  if compoundAmount ≤ 0 then return ()
  else do
    saveFarmPool poolId { pool with totalLiquidity := satI128 (pool.totalLiquidity + compoundAmount) }
    setFarmingPosition poolId provider (some { position with
      liquidityAmount := satI128 (position.liquidityAmount + compoundAmount), pendingRewards := 0
      totalRewardsClaimed := satI128 (position.totalRewardsClaimed + compoundAmount) })

/-- The calls of the providers. -/
inductive FarmOp where
  | addLiquidity (provider : Address) (poolId : Nat) (liquidityAmount : Int)
  | removeLiquidity (provider : Address) (poolId : Nat) (amountToWithdraw : Int)
  | claimFarmingRewards (provider : Address) (poolId : Nat)
  | compoundRewards (provider : Address) (poolId : Nat)
deriving DecidableEq, Repr

def FarmOp.run : FarmOp → Contract Farms Unit
  | .addLiquidity provider poolId amount => QuorumCredit.addLiquidity provider poolId amount
  | .removeLiquidity provider poolId amount => QuorumCredit.removeLiquidity provider poolId amount
  | .claimFarmingRewards provider poolId => discard (QuorumCredit.claimFarmingRewards provider poolId)
  | .compoundRewards provider poolId => QuorumCredit.compoundRewards provider poolId

/-- Farming while nothing changes the rates of the pools. -/
def liquidityFarming : Component World (List Address) Context Failure Farms FarmOp where
  run := FarmOp.run
  context w signers := { w with signers }
  drift w g w' g' := w.now ≤ w'.now ∧ w'.contract = w.contract ∧ g' = g

abbrev FarmHistory := List (Situated World Farms × Event World (List Address) Farms FarmOp)

end QuorumCredit
