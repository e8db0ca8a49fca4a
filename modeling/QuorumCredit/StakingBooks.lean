import QuorumCredit.StakingPool
import QuorumCredit.Host.Accumulator
import QuorumCredit.Host.Saturating
/-!
# The books of a staking pool

A pool and its positions are a reward accumulator: where nothing saturates, each
call is one of its moves, and pays out what the move pays (`refines`). The
accumulator's laws then hold of the pool over every run.
-/

open Host Function

namespace QuorumCredit

/-! ## What a call does -/

namespace StakerPosition

/-- The position after `harvest`. -/
def harvested (x : StakerPosition) (pool : StakingPool) : StakerPosition :=
  { x with
    pendingRewards := if 0 < x.amount then satI128 (x.pendingRewards + accrued pool x) else x.pendingRewards
    yieldSnapshotScaled := pool.yieldPerTokenScaled }

def holding (x : StakerPosition) : Holding := ⟨x.amount, x.yieldSnapshotScaled, x.pendingRewards⟩

end StakerPosition

/-- What `process_unstake` returns. -/
def totalReturn (pool : StakingPool) (x : StakerPosition) : Int :=
  satI128 (x.queuedUnstakeAmount + (x.harvested pool).pendingRewards)

/-- What a call that goes through found and did. -/
inductive StakingEffect (w : World) (s t : StakingStore) : StakingOp → Prop
  | created {signers token pool} : pool.poolId = s.pools.stakingPoolCounter + 1 → pool.totalStaked = 0 →
      pool.yieldPerTokenScaled = 0 →
      t.pools = StakingPools.savePool { s.pools with stakingPoolCounter := pool.poolId } pool →
      StakingEffect w s t (.createStakingPool signers token)
  | staked {p a x pool} : 0 < x → s.pools.stakingPool p = some pool →
      t.pools = (s.pools.savePosition p { (s.pools.loadPosition p a).harvested pool with
        amount := (s.pools.loadPosition p a).amount + x, lastActionTimestamp := w.now }).savePool
        { pool with totalStaked := satI128 (pool.totalStaked + x) } →
      StakingEffect w s t (.stakeCapital p a x)
  | queued {p a x pool} : 0 < x → s.pools.stakingPool p = some pool → x ≤ (s.pools.loadPosition p a).amount →
      t.pools = s.pools.savePosition p { (s.pools.loadPosition p a).harvested pool with
        pendingUnstake := true, queuedUnstakeAmount := x, lastActionTimestamp := w.now } →
      StakingEffect w s t (.queueUnstake p a x)
  | processed {p a pool} : s.pools.stakingPool p = some pool → (s.pools.loadPosition p a).pendingUnstake = true →
      t.pools = (s.pools.savePosition p { (s.pools.loadPosition p a).harvested pool with
        amount := satI128 ((s.pools.loadPosition p a).amount - (s.pools.loadPosition p a).queuedUnstakeAmount)
        pendingRewards := 0, pendingUnstake := false, queuedUnstakeAmount := 0, lastActionTimestamp := w.now }).savePool
        { pool with totalStaked := satI128 (pool.totalStaked - (s.pools.loadPosition p a).queuedUnstakeAmount) } →
      Bank.outflow t.bank.log w.contract =
        Bank.outflow s.bank.log w.contract + max (totalReturn pool (s.pools.loadPosition p a)) 0 →
      StakingEffect w s t (.processUnstake p a)
  | claimed {p a pool} : s.pools.stakingPool p = some pool →
      0 < ((s.pools.loadPosition p a).harvested pool).pendingRewards →
      t.pools = s.pools.savePosition p { (s.pools.loadPosition p a).harvested pool with
        pendingRewards := 0, lastActionTimestamp := w.now } →
      Bank.outflow t.bank.log w.contract =
        Bank.outflow s.bank.log w.contract + ((s.pools.loadPosition p a).harvested pool).pendingRewards →
      StakingEffect w s t (.claimYield p a)
  | distributed {signers p x pool} (pool') : 0 < x → s.pools.stakingPool p = some pool → 0 < pool.totalStaked →
      pool'.poolId = pool.poolId → pool'.totalStaked = pool.totalStaked →
      pool'.yieldPerTokenScaled =
        satI128 (pool.yieldPerTokenScaled + (x * yieldPerTokenPrecision).tdiv pool.totalStaked) →
      t.pools = s.pools.savePool pool' → StakingEffect w s t (.distributeYield signers p x)
  | lost {signers p x pool} : 0 < x → s.pools.stakingPool p = some pool → x ≤ pool.totalStaked →
      t.pools = s.pools.savePool { pool with
        yieldPerTokenScaled := satI128 (pool.yieldPerTokenScaled - (x * yieldPerTokenPrecision).tdiv pool.totalStaked)
        totalStaked := satI128 (pool.totalStaked - x) } →
      StakingEffect w s t (.applyStakingPoolLoss signers p x)
  | closed {signers p pool} : s.pools.stakingPool p = some pool →
      t.pools = s.pools.savePool { pool with status := .closed } → StakingEffect w s t (.closeStakingPool signers p)

section

variable {ctx : Context}

theorem yields_loadPool (p : Nat) (g : StakingPools) (Q : StakingPool → StakingPools → Prop) :
    Yields (loadPool p) ctx g Q ↔ ∀ pool, g.stakingPool p = some pool → Q pool g := by
  simp [loadPool]

theorem yields_harvest (pool : StakingPool) (x : StakerPosition) (g : StakingPools) :
    Yields (harvest pool x) ctx g fun x' g' => x' = x.harvested pool ∧ g' = g := by
  simp only [harvest, yields_ite, yields_steps, yields_i128]
  refine ⟨fun hpos _ => ⟨?_, trivial⟩, fun hpos => ⟨?_, trivial⟩⟩
  · simp [StakerPosition.harvested, hpos]
  · simp [StakerPosition.harvested, hpos]

theorem yields_stakingOp (op : StakingOp) (s : StakingStore) :
    Yields op.run ctx s fun _ t => StakingEffect ctx.toWorld s t op := by
  cases op with
  | createStakingPool signers token =>
    simp only [StakingOp.run, discard, createStakingPool, nextPoolId, onPools, yields_steps, yields_u64,
      yields_requireAllowedToken, yields_parts]
    refine (yields_true _ _ _).mono fun _ a _ => ?_
    refine (yields_requireAdminApproval signers).mono ?_
    rintro _ _ rfl _ _
    exact .created rfl rfl rfl rfl
  | stakeCapital p a x =>
    simp only [StakingOp.run, discard, stakeCapital, onPools, yields_steps, yields_requireAuth, yields_i128,
      yields_loadPool, yields_collect, yields_parts]
    intro _
    refine (yields_true _ _ _).mono fun _ access _ => ?_
    intro hpos pool hpool _
    refine (yields_harvest pool _ _).mono ?_
    rintro _ _ ⟨rfl, rfl⟩ _ _ _
    exact .staked hpos hpool rfl
  | queueUnstake p a x =>
    simp only [StakingOp.run, discard, queueUnstake, onPools, yields_steps, yields_requireAuth, yields_u64,
      yields_loadPool, yields_parts]
    intro _
    refine (yields_true _ _ _).mono fun _ access _ => ?_
    intro hpos pool hpool _
    refine (yields_harvest pool _ _).mono ?_
    rintro _ _ ⟨rfl, rfl⟩ hle _ _
    exact .queued hpos hpool hle rfl
  | processUnstake p a =>
    simp only [StakingOp.run, discard, processUnstake, onPools, yields_steps, yields_requireAuth, yields_loadPool,
      yields_ite, yields_pay, yields_parts]
    intro _
    refine (yields_true _ _ _).mono fun _ access _ => ?_
    intro pool hpool hpending _
    refine (yields_harvest pool _ _).mono ?_
    rintro _ _ ⟨rfl, rfl⟩
    refine ⟨fun hpos _ _ => ?_, fun hpos => ?_⟩
    · have hreturn : 0 < totalReturn pool (s.pools.loadPosition p a) := hpos
      refine .processed hpool hpending rfl ?_
      rw [max_eq_left hreturn.le]
      exact Bank.outflow_paid ..
    · have hreturn : ¬ 0 < totalReturn pool (s.pools.loadPosition p a) := hpos
      refine .processed hpool hpending rfl ?_
      rw [max_eq_right (not_lt.1 hreturn), add_zero]
      rfl
  | claimYield p a =>
    simp only [StakingOp.run, discard, claimYield, onPools, yields_steps, yields_requireAuth, yields_loadPool,
      yields_pay, yields_parts]
    intro _
    refine (yields_true _ _ _).mono fun _ access _ => ?_
    intro pool hpool
    refine (yields_harvest pool _ _).mono ?_
    rintro _ _ ⟨rfl, rfl⟩ hpos _ _
    refine .claimed hpool hpos rfl ?_
    exact Bank.outflow_paid ..
  | distributeYield signers p x =>
    simp only [StakingOp.run, distributeYield, onPools, yields_steps, yields_i128, yields_loadPool, yields_parts]
    refine (yields_true _ _ _).mono fun _ access _ => ?_
    refine (yields_requireAdminApproval signers).mono ?_
    rintro _ _ rfl hpos pool hpool _ htotal _ _
    let pool' : StakingPool :=
      { pool with
        yieldPerTokenScaled := satI128 (pool.yieldPerTokenScaled + (x * yieldPerTokenPrecision).tdiv pool.totalStaked)
        totalYieldDistributed := satI128 (pool.totalYieldDistributed + x)
        currentApyBps := annualisedApyBps pool ctx.now x
        lastYieldTimestamp := ctx.now }
    exact .distributed pool' hpos hpool htotal rfl rfl rfl rfl
  | applyStakingPoolLoss signers p x =>
    simp only [StakingOp.run, applyStakingPoolLoss, onPools, yields_steps, yields_i128, yields_loadPool, yields_parts]
    refine (yields_true _ _ _).mono fun _ access _ => ?_
    refine (yields_requireAdminApproval signers).mono ?_
    rintro _ _ rfl hpos pool hpool _ _ hle _
    exact .lost hpos hpool hle rfl
  | closeStakingPool signers p =>
    simp only [StakingOp.run, closeStakingPool, onPools, yields_steps, yields_loadPool, yields_parts]
    refine (yields_true _ _ _).mono fun _ access _ => ?_
    refine (yields_requireAdminApproval signers).mono ?_
    rintro _ _ rfl pool hpool _
    exact .closed hpool rfl

end

theorem stakingEffect_of {s : Situated World StakingStore} {signers : List Address} {op : StakingOp} {t : StakingStore}
    (h : stakingPools.exec s signers op = some t) : StakingEffect s.world s.store t op :=
  Component.exec_yields (Q := fun t => StakingEffect s.world s.store t op) (yields_stakingOp op s.store) h

/-! ## Pools as accumulators -/

namespace StakingPools

/-- The pool and its positions, as an accumulator. -/
def accumulator (g : StakingPools) (p : Nat) : Accumulator Address where
  total := ((g.stakingPool p).map (·.totalStaked)).getD 0
  index := ((g.stakingPool p).map (·.yieldPerTokenScaled)).getD 0
  holding a := (g.loadPosition p a).holding

/-- Pools and positions are stored under their own keys, ids beyond the counter
are free, and a queued amount is part of the position. -/
structure Sound (g : StakingPools) : Prop where
  poolId : ∀ p pool, g.stakingPool p = some pool → pool.poolId = p
  staker : ∀ p a x, g.stakingPoolStake p a = some x → x.staker = a
  free : ∀ p, g.stakingPoolCounter < p → g.stakingPool p = none
  vacant : ∀ p, g.stakingPool p = none → g.stakingPoolStake p = fun _ => none
  amount : ∀ p a, 0 ≤ (g.loadPosition p a).amount
  queued : ∀ p a, (g.loadPosition p a).pendingUnstake = true →
    0 ≤ (g.loadPosition p a).queuedUnstakeAmount ∧
      (g.loadPosition p a).queuedUnstakeAmount ≤ (g.loadPosition p a).amount

theorem sound_empty : Sound .empty where
  poolId _ _ h := by cases h
  staker _ _ _ h := by cases h
  free _ _ := rfl
  vacant _ _ := rfl
  amount _ _ := le_refl 0
  queued _ _ h := by cases h

variable {g : StakingPools}

theorem Sound.staker_load (h : Sound g) (p : Nat) (a : Address) : (g.loadPosition p a).staker = a := by
  unfold loadPosition
  cases hx : g.stakingPoolStake p a with
  | none => rfl
  | some x => exact h.staker p a x hx

theorem loadPosition_savePosition (g : StakingPools) (p : Nat) (x : StakerPosition) (q : Nat) (a : Address) :
    (g.savePosition p x).loadPosition q a = if q = p ∧ a = x.staker then x else g.loadPosition q a := by
  unfold loadPosition savePosition
  by_cases hq : q = p
  · subst hq
    by_cases ha : a = x.staker
    · simp [ha]
    · simp [ha]
  · simp [hq]

theorem accumulator_savePosition (g : StakingPools) (p : Nat) (x : StakerPosition) (q : Nat) :
    (g.savePosition p x).accumulator q =
      if q = p then { g.accumulator p with holding := update (g.accumulator p).holding x.staker x.holding }
      else g.accumulator q := by
  split
  case isTrue hq =>
    subst hq
    have hholding : (fun a => ((g.savePosition q x).loadPosition q a).holding) =
        update (fun a => (g.loadPosition q a).holding) x.staker x.holding := by
      funext a
      rw [loadPosition_savePosition, update_apply]
      by_cases ha : a = x.staker
      · simp [ha]
      · simp [ha]
    simp only [accumulator, hholding]
    rfl
  case isFalse hq =>
    have hholding : (fun a => ((g.savePosition p x).loadPosition q a).holding) =
        fun a => (g.loadPosition q a).holding := by
      funext a
      rw [loadPosition_savePosition, if_neg fun h => hq h.1]
    simp only [accumulator, hholding]
    rfl

theorem accumulator_savePool (g : StakingPools) (pool : StakingPool) (q : Nat) :
    (g.savePool pool).accumulator q =
      if q = pool.poolId then ⟨pool.totalStaked, pool.yieldPerTokenScaled, (g.accumulator q).holding⟩
      else g.accumulator q := by
  split
  case isTrue hq =>
    subst hq
    simp [accumulator, savePool, loadPosition]
  case isFalse hq => simp [accumulator, savePool, loadPosition, hq]

theorem accumulator_some {p : Nat} {pool : StakingPool} (h : g.stakingPool p = some pool) :
    g.accumulator p = ⟨pool.totalStaked, pool.yieldPerTokenScaled, fun a => (g.loadPosition p a).holding⟩ := by
  simp [accumulator, h]

/-- Storing a pool over one of the same id. -/
theorem Sound.savePool (h : Sound g) {p : Nat} {pool pool' : StakingPool} (hpool : g.stakingPool p = some pool)
    (hid : pool'.poolId = pool.poolId) : Sound (g.savePool pool') := by
  have hp := h.poolId p pool hpool
  have hlookup (q : Nat) : (g.savePool pool').stakingPool q = if q = p then some pool' else g.stakingPool q := by
    simp only [StakingPools.savePool, hid, hp, update_apply]
  refine ⟨fun q pool'' hq => ?_, h.staker, fun q hq => ?_, fun q hq => ?_, h.amount, h.queued⟩
  · rw [hlookup] at hq
    split at hq
    case isTrue hqp =>
      cases hq
      rw [hid, hp, hqp]
    case isFalse => exact h.poolId q pool'' hq
  · rw [hlookup, if_neg, h.free q hq]
    rintro rfl
    rw [h.free q hq] at hpool
    cases hpool
  · rw [hlookup] at hq
    split at hq
    case isTrue => cases hq
    case isFalse => exact h.vacant q hq

/-- Storing a position of a pool that exists. -/
theorem Sound.savePosition (h : Sound g) {p : Nat} {pool : StakingPool} (hpool : g.stakingPool p = some pool)
    {x : StakerPosition} (hamount : 0 ≤ x.amount)
    (hqueued : x.pendingUnstake = true → 0 ≤ x.queuedUnstakeAmount ∧ x.queuedUnstakeAmount ≤ x.amount) :
    Sound (g.savePosition p x) := by
  refine ⟨h.poolId, fun q a y hy => ?_, h.free, fun q hq => ?_, fun q a => ?_, fun q a => ?_⟩
  · by_cases hqp : q = p
    · subst hqp
      by_cases ha : a = x.staker
      · subst ha
        simp only [StakingPools.savePosition, update_self, Option.some.injEq] at hy
        rw [← hy]
      · simp only [StakingPools.savePosition, update_self, update_of_ne ha] at hy
        exact h.staker q a y hy
    · simp only [StakingPools.savePosition, update_of_ne hqp] at hy
      exact h.staker q a y hy
  · have hqp : q ≠ p := by
      rintro rfl
      rw [show g.stakingPool q = none from hq] at hpool
      cases hpool
    simp only [StakingPools.savePosition, update_of_ne hqp]
    exact h.vacant q hq
  · rw [loadPosition_savePosition]
    split
    · exact hamount
    · exact h.amount q a
  · rw [loadPosition_savePosition]
    split
    · exact hqueued
    · exact h.queued q a

end StakingPools

/-! ## Calls as moves -/

namespace StakingOp

/-- The move of the pool's accumulator that the call is. -/
def move (g : StakingPools) (p : Nat) : StakingOp → Option (Accumulator.Move Address)
  | .stakeCapital p' a x => if p' = p then some (.deposit a x) else none
  | .queueUnstake p' a _ => if p' = p then some (.settle a) else none
  | .processUnstake p' a => if p' = p then some (.exit a (g.loadPosition p a).queuedUnstakeAmount) else none
  | .claimYield p' a => if p' = p then some (.claim a) else none
  | .distributeYield _ p' x => if p' = p then some (.distribute x) else none
  | .applyStakingPoolLoss _ p' x => if p' = p then some (.lose x) else none
  | .createStakingPool .. | .closeStakingPool .. => none

/-- The calls that pay stakers out of the pool. -/
def exits (p : Nat) : StakingOp → Bool
  | .processUnstake p' _ | .claimYield p' _ => p' = p
  | _ => false

def deposits (p : Nat) : StakingOp → Int
  | .stakeCapital p' _ x => if p' = p then x else 0
  | _ => 0

def yieldTo (p : Nat) : StakingOp → Int
  | .distributeYield _ p' x => if p' = p then x else 0
  | _ => 0

def losses (p : Nat) : StakingOp → Int
  | .applyStakingPoolLoss _ p' x => if p' = p then x else 0
  | _ => 0

end StakingOp

/-- No multiplication of the harvest falls back to zero, and no reward saturates. -/
def HarvestFits (g : StakingPools) (p : Nat) (a : Address) : Prop :=
  FitsI128 (((g.accumulator p).holding a).gain (g.accumulator p).index) ∧
    FitsI128 ((g.accumulator p).settled yieldPerTokenPrecision a).pending

/-- The amounts are small enough that nothing saturates in the call. -/
def Unsaturated (g : StakingPools) : StakingOp → Prop
  | .stakeCapital p a x => HarvestFits g p a ∧ FitsI128 ((g.accumulator p).total + x)
  | .queueUnstake p a _ | .claimYield p a => HarvestFits g p a
  | .processUnstake p a =>
    HarvestFits g p a ∧
      FitsI128 ((g.loadPosition p a).queuedUnstakeAmount +
        ((g.accumulator p).settled yieldPerTokenPrecision a).pending) ∧
      FitsI128 ((g.loadPosition p a).amount - (g.loadPosition p a).queuedUnstakeAmount) ∧
      FitsI128 ((g.accumulator p).total - (g.loadPosition p a).queuedUnstakeAmount)
  | .distributeYield _ p x => FitsI128 ((g.accumulator p).index + (g.accumulator p).share yieldPerTokenPrecision x)
  | .applyStakingPoolLoss _ p x =>
    FitsI128 ((g.accumulator p).index - (g.accumulator p).share yieldPerTokenPrecision x) ∧
      FitsI128 ((g.accumulator p).total - x)
  | .createStakingPool .. | .closeStakingPool .. => True

instance (g : StakingPools) (op : StakingOp) : Decidable (Unsaturated g op) := by
  unfold Unsaturated HarvestFits
  split <;> infer_instance

/-- A harvest settles the holding. -/
theorem holding_harvested {g : StakingPools} {p : Nat} {pool : StakingPool} (hpool : g.stakingPool p = some pool)
    {a : Address} (hamount : 0 ≤ (g.loadPosition p a).amount) (hfits : HarvestFits g p a) :
    ((g.loadPosition p a).harvested pool).holding = (g.accumulator p).settled yieldPerTokenPrecision a := by
  unfold HarvestFits at hfits
  rw [StakingPools.accumulator_some hpool] at hfits ⊢
  simp only [Accumulator.settled, Holding.settled, Holding.gain, StakerPosition.holding] at hfits ⊢
  generalize g.loadPosition p a = x at hamount hfits ⊢
  have haccrued : accrued pool x =
      ((pool.yieldPerTokenScaled - x.yieldSnapshotScaled) * x.amount).tdiv yieldPerTokenPrecision := by
    rw [accrued, mulOrZero, if_pos hfits.1]
  simp only [StakerPosition.harvested, Holding.mk.injEq, true_and, haccrued, satI128_of_fits hfits.2]
  split
  · rfl
  · have hzero : x.amount = 0 := by omega
    simp [hzero]

theorem StakingEffect.sound {w : World} {s t : StakingStore} {op : StakingOp} (he : StakingEffect w s t op)
    (h : s.pools.Sound) (hu : Unsaturated s.pools op) : t.pools.Sound := by
  cases he with
  | @created _ _ pool hid _ _ ht =>
    rw [ht]
    have hvacant := h.vacant _ (h.free _ (Nat.lt_succ_self _))
    have hlookup (q : Nat) :
        (StakingPools.savePool { s.pools with stakingPoolCounter := pool.poolId } pool).stakingPool q =
          if q = pool.poolId then some pool else s.pools.stakingPool q := by
      simp only [StakingPools.savePool, update_apply]
    refine ⟨fun q pool' hq => ?_, h.staker, fun q hq => ?_, fun q hq => ?_, h.amount, h.queued⟩
    · rw [hlookup] at hq
      split at hq
      case isTrue hqp =>
        cases hq
        exact hqp.symm
      case isFalse => exact h.poolId q pool' hq
    · have hlt : pool.poolId < q := hq
      rw [hlookup, if_neg (by omega)]
      exact h.free q (by omega)
    · rw [hlookup] at hq
      split at hq
      case isTrue => cases hq
      case isFalse => exact h.vacant q hq
  | @staked p a x pool hpos hpool ht =>
    rw [ht]
    have hamount := h.amount p a
    have hsaved := h.savePosition hpool (x := { (s.pools.loadPosition p a).harvested pool with
      amount := (s.pools.loadPosition p a).amount + x, lastActionTimestamp := w.now }) (by simp only; omega)
        fun hpending => by
        have hqueued := h.queued p a hpending
        exact ⟨hqueued.1, by simp only [StakerPosition.harvested]; omega⟩
    exact hsaved.savePool hpool rfl
  | @queued p a x pool hpos hpool hle ht =>
    rw [ht]
    exact h.savePosition hpool (h.amount p a) fun _ => ⟨hpos.le, hle⟩
  | @processed p a pool hpool hpending ht =>
    rw [ht]
    have hqueued := h.queued p a hpending
    have hsaved := h.savePosition hpool (x := { (s.pools.loadPosition p a).harvested pool with
      amount := satI128 ((s.pools.loadPosition p a).amount - (s.pools.loadPosition p a).queuedUnstakeAmount)
      pendingRewards := 0, pendingUnstake := false, queuedUnstakeAmount := 0, lastActionTimestamp := w.now })
      (by simp only [satI128_of_fits hu.2.2.1]; omega) (by simp)
    exact hsaved.savePool hpool rfl
  | @claimed p a pool hpool _ ht =>
    rw [ht]
    exact h.savePosition hpool (h.amount p a) (h.queued p a)
  | distributed pool' _ hpool _ hid _ _ ht =>
    rw [ht]
    exact h.savePool hpool hid
  | lost _ hpool _ ht =>
    rw [ht]
    exact h.savePool hpool rfl
  | closed hpool ht =>
    rw [ht]
    exact h.savePool hpool rfl

/-- From `f` to `f'` by a valid move, or by none. -/
def Moved (f f' : Accumulator Address) : Option (Accumulator.Move Address) → Prop
  | some m => f.Valid yieldPerTokenPrecision m ∧ f' = f.apply yieldPerTokenPrecision m
  | none => f' = f

/-- A position stored in the pool, by the holding it records. -/
theorem accumulator_store {g : StakingPools} {p : Nat} {a : Address} {x : StakerPosition} {y : Holding}
    (hx : x.holding = y) (hstaker : x.staker = a) :
    (g.savePosition p x).accumulator p = { g.accumulator p with holding := update (g.accumulator p).holding a y } := by
  rw [StakingPools.accumulator_savePosition, if_pos rfl, hstaker, hx]

/-- Where nothing saturates, a call on a pool is a move of its accumulator, and leaves the other pools alone. -/
theorem StakingEffect.refines {w : World} {s t : StakingStore} {op : StakingOp} (he : StakingEffect w s t op)
    (h : s.pools.Sound) (hu : Unsaturated s.pools op) (p : Nat) :
    Moved (s.pools.accumulator p) (t.pools.accumulator p) (op.move s.pools p) := by
  have hother {p' : Nat} (hp : ¬ p' = p) {x : StakerPosition} {pool pool' : StakingPool}
      (hpool : s.pools.stakingPool p' = some pool) (hid : pool'.poolId = pool.poolId) :
      ((s.pools.savePosition p' x).savePool pool').accumulator p = s.pools.accumulator p := by
    rw [StakingPools.accumulator_savePool, hid, h.poolId _ _ hpool, if_neg (Ne.symm hp),
      StakingPools.accumulator_savePosition, if_neg (Ne.symm hp)]
  have hpoolId {p' : Nat} {pool : StakingPool} (hpool : s.pools.stakingPool p' = some pool) : pool.poolId = p' :=
    h.poolId _ _ hpool
  cases he with
  | @created _ _ pool hid htotal hindex ht =>
    change t.pools.accumulator p = s.pools.accumulator p
    rw [ht, StakingPools.accumulator_savePool]
    split
    case isTrue hp =>
      have hnone : s.pools.stakingPool p = none := h.free p (by omega)
      simp only [StakingPools.accumulator, hnone, htotal, hindex]
      rfl
    case isFalse => rfl
  | @staked p' a x pool hpos hpool ht =>
    simp only [StakingOp.move]
    split
    case isTrue hp =>
      subst hp
      refine ⟨hpos, ?_⟩
      have hheld := holding_harvested hpool (h.amount p' a) hu.1
      have hstored : StakerPosition.holding { (s.pools.loadPosition p' a).harvested pool with
          amount := (s.pools.loadPosition p' a).amount + x, lastActionTimestamp := w.now } =
          { (s.pools.accumulator p').settled yieldPerTokenPrecision a with
            amount := (s.pools.loadPosition p' a).amount + x } := by
        rw [← hheld]
        rfl
      rw [ht, StakingPools.accumulator_savePool, if_pos (hpoolId hpool).symm,
        accumulator_store hstored (h.staker_load p' a)]
      have hfits := hu.2
      rw [StakingPools.accumulator_some hpool] at hfits ⊢
      simp only [satI128_of_fits hfits]
      rfl
    case isFalse hp => exact ht ▸ hother hp hpool rfl
  | @queued p' a x pool hpos hpool hle ht =>
    simp only [StakingOp.move]
    split
    case isTrue hp =>
      subst hp
      refine ⟨trivial, ?_⟩
      have hheld := holding_harvested hpool (h.amount p' a) hu
      have hstored : StakerPosition.holding { (s.pools.loadPosition p' a).harvested pool with
          pendingUnstake := true, queuedUnstakeAmount := x, lastActionTimestamp := w.now } =
          (s.pools.accumulator p').settled yieldPerTokenPrecision a := hheld
      rw [ht, accumulator_store hstored (h.staker_load p' a)]
      rfl
    case isFalse hp =>
      change t.pools.accumulator p = s.pools.accumulator p
      rw [ht, StakingPools.accumulator_savePosition, if_neg (Ne.symm hp)]
  | @processed p' a pool hpool hpending ht _ =>
    simp only [StakingOp.move]
    split
    case isTrue hp =>
      subst hp
      refine ⟨h.queued p' a hpending, ?_⟩
      have hheld := holding_harvested hpool (h.amount p' a) hu.1
      obtain ⟨-, -, hamount, htotal⟩ := hu
      have hstored : StakerPosition.holding { (s.pools.loadPosition p' a).harvested pool with
          amount := satI128 ((s.pools.loadPosition p' a).amount - (s.pools.loadPosition p' a).queuedUnstakeAmount)
          pendingRewards := 0, pendingUnstake := false, queuedUnstakeAmount := 0, lastActionTimestamp := w.now } =
          { (s.pools.accumulator p').settled yieldPerTokenPrecision a with
            amount := (s.pools.loadPosition p' a).amount - (s.pools.loadPosition p' a).queuedUnstakeAmount
            pending := 0 } := by
        rw [← hheld, satI128_of_fits hamount]
        rfl
      rw [ht, StakingPools.accumulator_savePool, if_pos (hpoolId hpool).symm,
        accumulator_store hstored (h.staker_load p' a)]
      rw [StakingPools.accumulator_some hpool] at htotal ⊢
      simp only [satI128_of_fits htotal]
      rfl
    case isFalse hp => exact ht ▸ hother hp hpool rfl
  | @claimed p' a pool hpool hpos ht _ =>
    simp only [StakingOp.move]
    split
    case isTrue hp =>
      subst hp
      have hheld := holding_harvested hpool (h.amount p' a) hu
      refine ⟨?_, ?_⟩
      · change 0 < ((s.pools.accumulator p').settled yieldPerTokenPrecision a).pending
        rw [← hheld]
        exact hpos
      · have hstored : StakerPosition.holding { (s.pools.loadPosition p' a).harvested pool with
            pendingRewards := 0, lastActionTimestamp := w.now } =
            { (s.pools.accumulator p').settled yieldPerTokenPrecision a with pending := 0 } := by
          rw [← hheld]
          rfl
        rw [ht, accumulator_store hstored (h.staker_load p' a)]
        rfl
    case isFalse hp =>
      change t.pools.accumulator p = s.pools.accumulator p
      rw [ht, StakingPools.accumulator_savePosition, if_neg (Ne.symm hp)]
  | @distributed _ p' x pool pool' hpos hpool htotal hid hsame hindex ht =>
    simp only [StakingOp.move]
    split
    case isTrue hp =>
      subst hp
      have hfits : FitsI128 ((s.pools.accumulator p').index +
          (s.pools.accumulator p').share yieldPerTokenPrecision x) := hu
      rw [ht, StakingPools.accumulator_savePool, if_pos ((hid.trans (hpoolId hpool)).symm), hsame, hindex]
      rw [StakingPools.accumulator_some hpool] at hfits ⊢
      simp only [Accumulator.share] at hfits
      refine ⟨⟨hpos, htotal⟩, ?_⟩
      simp only [satI128_of_fits hfits]
      rfl
    case isFalse hp =>
      change t.pools.accumulator p = s.pools.accumulator p
      rw [ht, StakingPools.accumulator_savePool, if_neg]
      rw [hid, hpoolId hpool]
      exact Ne.symm hp
  | @lost _ p' x pool hpos hpool hle ht =>
    simp only [StakingOp.move]
    split
    case isTrue hp =>
      subst hp
      obtain ⟨hindex, htotal⟩ := hu
      rw [ht, StakingPools.accumulator_savePool, if_pos (hpoolId hpool).symm]
      rw [StakingPools.accumulator_some hpool] at hindex htotal ⊢
      simp only [Accumulator.share] at hindex
      refine ⟨⟨hpos, hle⟩, ?_⟩
      simp only [satI128_of_fits hindex, satI128_of_fits htotal]
      rfl
    case isFalse hp =>
      change t.pools.accumulator p = s.pools.accumulator p
      rw [ht, StakingPools.accumulator_savePool, if_neg]
      rw [hpoolId hpool]
      exact Ne.symm hp
  | @closed _ p' pool hpool ht =>
    change t.pools.accumulator p = s.pools.accumulator p
    rw [ht, StakingPools.accumulator_savePool]
    split
    case isTrue hp =>
      rw [hpoolId hpool] at hp
      subst hp
      rw [StakingPools.accumulator_some hpool]
    case isFalse => rfl

/-- A call that pays stakers out of a pool pays what its move pays. -/
theorem StakingEffect.pays {w : World} {s t : StakingStore} {op : StakingOp} (he : StakingEffect w s t op)
    (h : s.pools.Sound) (hu : Unsaturated s.pools op) {p : Nat} (hop : op.exits p = true) {m : Accumulator.Move Address}
    (hm : op.move s.pools p = some m) :
    Bank.outflow t.bank.log w.contract =
      Bank.outflow s.bank.log w.contract + (s.pools.accumulator p).paid yieldPerTokenPrecision m := by
  cases he with
  | @processed p' a pool hpool _ _ hpaid =>
    obtain rfl : p' = p := of_decide_eq_true hop
    simp only [StakingOp.move, if_true, Option.some.injEq] at hm
    rw [hpaid, ← hm]
    have hheld := holding_harvested hpool (h.amount p' a) hu.1
    have hrewards : ((s.pools.loadPosition p' a).harvested pool).pendingRewards =
        ((s.pools.accumulator p').settled yieldPerTokenPrecision a).pending := congrArg Holding.pending hheld
    rw [totalReturn, hrewards, satI128_of_fits hu.2.1]
    rfl
  | @claimed p' a pool hpool _ _ hpaid =>
    obtain rfl : p' = p := of_decide_eq_true hop
    simp only [StakingOp.move, if_true, Option.some.injEq] at hm
    rw [hpaid, ← hm]
    have hheld := holding_harvested hpool (h.amount p' a) hu
    exact congrArg (Bank.outflow s.bank.log w.contract + Holding.pending ·) hheld
  | _ => cases hop

end QuorumCredit
