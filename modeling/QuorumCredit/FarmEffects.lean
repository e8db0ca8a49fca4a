import QuorumCredit.LiquidityFarming
/-!
# What the calls on a farm do

A call settles the position of its provider, and then writes it and its pool.
-/

open Host Function

namespace QuorumCredit

namespace FarmingPosition

/-- What the position has earned since it was last settled. -/
def accrued (pos : FarmingPosition) (pool : LiquidityFarmPool) (now : Nat) : Int :=
  if 0 < pool.totalLiquidity then
    ((pool.rewardRate * ((now - pos.lastClaimTime : Nat) : Int) * pos.liquidityAmount).tdiv pool.totalLiquidity *
      pool.seasonMultiplier).tdiv 1000
  else 0

/-- The position, settled. -/
def settled (pos : FarmingPosition) (pool : LiquidityFarmPool) (now : Nat) : FarmingPosition :=
  if now - pos.lastClaimTime = 0 then pos
  else { pos with pendingRewards := satI128 (pos.pendingRewards + pos.accrued pool now), lastClaimTime := now }

@[simp] theorem settled_liquidityAmount (pos : FarmingPosition) (pool : LiquidityFarmPool) (now : Nat) :
    (pos.settled pool now).liquidityAmount = pos.liquidityAmount := by
  unfold settled
  split <;> rfl

theorem settled_lastClaimTime {pos : FarmingPosition} {now : Nat} (hle : pos.lastClaimTime ≤ now)
    (pool : LiquidityFarmPool) : (pos.settled pool now).lastClaimTime = now := by
  unfold settled
  split
  · omega
  · rfl

/-- A settled position has nothing more to settle. -/
theorem settled_again {pos : FarmingPosition} {now : Nat} (hnow : pos.lastClaimTime = now) (pool : LiquidityFarmPool) :
    pos.settled pool now = pos := by
  rw [settled, hnow, Nat.sub_self, if_pos rfl]

end FarmingPosition

theorem yields_claimFarmingRewardsInternal (pos : FarmingPosition) (pool : LiquidityFarmPool) (now : Nat)
    {ctx : Context} (g : Farms) :
    Yields (claimFarmingRewardsInternal pos pool now) ctx g fun pos' g' => pos' = pos.settled pool now ∧ g' = g := by
  unfold claimFarmingRewardsInternal FarmingPosition.settled
  split
  · simp
  · unfold rewardAllocation FarmingPosition.accrued
    split <;> simp

/-- The position and the total liquidity that a call leaves, where it writes them. -/
inductive Rewrites (pool : LiquidityFarmPool) (now : Nat) :
    Option FarmingPosition → FarmOp → Option FarmingPosition → Int → Prop
  | opened {p id x} : 0 < x → Rewrites pool now none (.addLiquidity p id x)
      (some { lpProvider := p, poolId := id, liquidityAmount := x, stakeTimestamp := now, lastClaimTime := now
              pendingRewards := 0, totalRewardsClaimed := 0 })
      (satI128 (pool.totalLiquidity + x))
  | added {pos p id x} : 0 < x → Rewrites pool now (some pos) (.addLiquidity p id x)
      (some { pos.settled pool now with liquidityAmount := satI128 (pos.liquidityAmount + x) })
      (satI128 (pool.totalLiquidity + x))
  | removed {pos p id x} : 0 < x → x ≤ pos.liquidityAmount → Rewrites pool now (some pos) (.removeLiquidity p id x)
      (if 0 < satI128 (pos.liquidityAmount - x) then
        some { pos.settled pool now with liquidityAmount := satI128 (pos.liquidityAmount - x) }
       else none)
      (satI128 (pool.totalLiquidity - x))
  | claimed {pos p id} : Rewrites pool now (some pos) (.claimFarmingRewards p id)
      (some { pos.settled pool now with
        pendingRewards := 0
        totalRewardsClaimed :=
          satI128 ((pos.settled pool now).totalRewardsClaimed + (pos.settled pool now).pendingRewards) })
      pool.totalLiquidity
  | compounded {pos p id} : 0 < (pos.settled pool now).pendingRewards →
      Rewrites pool now (some pos) (.compoundRewards p id)
        (some { pos.settled pool now with
          liquidityAmount := satI128 (pos.liquidityAmount + (pos.settled pool now).pendingRewards)
          pendingRewards := 0
          totalRewardsClaimed :=
            satI128 ((pos.settled pool now).totalRewardsClaimed + (pos.settled pool now).pendingRewards) })
        (satI128 (pool.totalLiquidity + (pos.settled pool now).pendingRewards))

namespace FarmOp

def poolId : FarmOp → Nat
  | .addLiquidity _ id _ => id
  | .removeLiquidity _ id _ => id
  | .claimFarmingRewards _ id => id
  | .compoundRewards _ id => id

def provider : FarmOp → Address
  | .addLiquidity p _ _ => p
  | .removeLiquidity p _ _ => p
  | .claimFarmingRewards p _ => p
  | .compoundRewards p _ => p

end FarmOp

/-- What a call that goes through does: it writes one position and its pool, or finds nothing to compound. -/
inductive FarmEffect (now : Nat) (g g' : Farms) (op : FarmOp) : Prop
  | written {pool : LiquidityFarmPool} {new : Option FarmingPosition} {total' : Int} :
      g.farmPool op.poolId = some pool →
      Rewrites pool now (g.farmingPosition op.poolId op.provider) op new total' →
      g'.farmPool = update g.farmPool op.poolId (some { pool with totalLiquidity := total' }) →
      g'.farmingPosition =
        update g.farmingPosition op.poolId (update (g.farmingPosition op.poolId) op.provider new) →
      FarmEffect now g g' op
  | nothing {pool : LiquidityFarmPool} {pos : FarmingPosition} : g.farmPool op.poolId = some pool →
      g.farmingPosition op.poolId op.provider = some pos → (pos.settled pool now).pendingRewards ≤ 0 →
      op = .compoundRewards op.provider op.poolId → g' = g → FarmEffect now g g' op

section

variable {ctx : Context}

theorem yields_addLiquidity (p : Address) (id : Nat) (x : Int) (g : Farms) :
    Yields (addLiquidity p id x) ctx g fun _ g' => FarmEffect ctx.now g g' (.addLiquidity p id x) := by
  simp only [addLiquidity, loadFarmPool, saveFarmPool, setFarmingPosition, yields_steps, yields_requireAuth]
  intro _ hx pool hpool _
  cases hpos : g.farmingPosition id p with
  | none =>
    rw [depositedPosition, yields_pure]
    exact .written hpool (hpos ▸ .opened hx) rfl rfl
  | some pos =>
    rw [depositedPosition, yields_bind]
    refine (yields_claimFarmingRewardsInternal pos pool ctx.now g).mono ?_
    rintro _ _ ⟨rfl, rfl⟩
    rw [yields_pure, FarmingPosition.settled_liquidityAmount]
    exact .written hpool (hpos ▸ .added hx) rfl rfl

theorem yields_removeLiquidity (p : Address) (id : Nat) (x : Int) (g : Farms) :
    Yields (removeLiquidity p id x) ctx g fun _ g' => FarmEffect ctx.now g g' (.removeLiquidity p id x) := by
  simp only [removeLiquidity, loadFarmPool, loadFarmingPosition, saveFarmPool, setFarmingPosition, yields_steps,
    yields_requireAuth]
  intro _ hx pool hpool pos hpos hle
  refine (yields_claimFarmingRewardsInternal pos pool ctx.now g).mono ?_
  rintro _ _ ⟨rfl, rfl⟩
  simp only [FarmingPosition.settled_liquidityAmount]
  exact .written hpool (hpos ▸ .removed hx hle) rfl rfl

theorem yields_claimFarmingRewards (p : Address) (id : Nat) (g : Farms) :
    Yields (claimFarmingRewards p id) ctx g fun _ g' => FarmEffect ctx.now g g' (.claimFarmingRewards p id) := by
  simp only [claimFarmingRewards, loadFarmPool, loadFarmingPosition, setFarmingPosition, yields_steps,
    yields_requireAuth]
  intro _ pool hpool pos hpos
  refine (yields_claimFarmingRewardsInternal pos pool ctx.now g).mono ?_
  rintro _ g' ⟨rfl, hsame⟩
  have hrewrites := @Rewrites.claimed pool ctx.now pos p id
  rw [← hpos] at hrewrites
  rw [hsame]
  refine .written hpool hrewrites ?_ rfl
  exact (update_eq_self_iff.2 hpool.symm).symm

theorem yields_compoundRewards (p : Address) (id : Nat) (g : Farms) :
    Yields (compoundRewards p id) ctx g fun _ g' => FarmEffect ctx.now g g' (.compoundRewards p id) := by
  simp only [compoundRewards, loadFarmPool, loadFarmingPosition, saveFarmPool, setFarmingPosition, yields_steps,
    yields_requireAuth]
  intro _ pool hpool pos hpos
  refine (yields_claimFarmingRewardsInternal pos pool ctx.now g).mono ?_
  rintro _ _ ⟨rfl, rfl⟩
  rw [yields_ite]
  constructor
  · intro hnothing
    rw [yields_pure]
    exact .nothing hpool hpos hnothing rfl rfl
  · intro hsome
    simp only [yields_steps, FarmingPosition.settled_liquidityAmount]
    exact .written hpool (hpos ▸ .compounded (lt_of_not_ge hsome)) rfl rfl

theorem yields_farmOp (op : FarmOp) (g : Farms) :
    Yields op.run ctx g fun _ g' => FarmEffect ctx.now g g' op := by
  cases op with
  | addLiquidity p id x => exact yields_addLiquidity p id x g
  | removeLiquidity p id x => exact yields_removeLiquidity p id x g
  | claimFarmingRewards p id =>
    simp only [FarmOp.run, discard, yields_steps]
    exact yields_claimFarmingRewards p id g
  | compoundRewards p id => exact yields_compoundRewards p id g

end

end QuorumCredit
