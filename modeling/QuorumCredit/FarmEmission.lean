import QuorumCredit.FarmEffects
import QuorumCredit.Host.Emission
import QuorumCredit.Host.Script
/-!
# What the farm emits

A position is settled for the whole time since its last settlement, at the total of
the moment. Somebody who leaves lowers the total for all who are not settled, so
they are paid more than the rate for a time in which the others were there.
-/

open Host Function

namespace QuorumCredit

/-! ## The pool as a stream -/

/-- The liquidity of a position; none, if there is none. -/
def held (position : Option FarmingPosition) : Int := position.elim 0 (·.liquidityAmount)

/-- A pool as a stream that its positions share. -/
def Farms.stream (g : Farms) (id : Nat) (pool : LiquidityFarmPool) : Stream Address :=
  { amount := fun p => held (g.farmingPosition id p)
    settled := fun p => (g.farmingPosition id p).elim 0 (·.lastClaimTime)
    total := pool.totalLiquidity }

/-- Rewards for a second, over the whole pool. -/
def LiquidityFarmPool.rate (pool : LiquidityFarmPool) : ℚ := pool.rewardRate * pool.seasonMultiplier / 1000

/-- What a settlement credits to the position. -/
def FarmingPosition.credit (pos : FarmingPosition) (pool : LiquidityFarmPool) (now : Nat) : Int :=
  (pos.settled pool now).pendingRewards - pos.pendingRewards

/-- The part of that credit for the time between `t₁` and `t₂`: a credit is for the
whole time since the last settlement. -/
def FarmingPosition.creditBetween (pos : FarmingPosition) (pool : LiquidityFarmPool) (now t₁ t₂ : Nat) : ℚ :=
  pos.credit pool now * ((windowed t₁ t₂ now - windowed t₁ t₂ pos.lastClaimTime : Int) : ℚ) /
    ((now - pos.lastClaimTime : Nat) : ℚ)

/-- What the call credits for the time between `t₁` and `t₂`. -/
def callCredit (t₁ t₂ : Nat) (s : Situated World Farms) (op : FarmOp) : ℚ :=
  match s.store.farmPool op.poolId, s.store.farmingPosition op.poolId op.provider with
  | some pool, some pos => pos.creditBetween pool s.world.now t₁ t₂
  | _, _ => 0

/-- What was credited to the positions of the pool for the time between `t₁` and `t₂`. -/
def creditedBetween (id t₁ t₂ : Nat) : FarmHistory → ℚ :=
  liquidityFarming.replay (fun s op _ acc => if op.poolId = id then acc + callCredit t₁ t₂ s op else acc) 0

variable {s : Situated World Farms}

theorem creditedBetween_call {h : FarmHistory} {signers : List Address} {op : FarmOp} {t : Farms}
    (he : liquidityFarming.exec s signers op = some t) (id t₁ t₂ : Nat) :
    creditedBetween id t₁ t₂ ((s, .call signers op) :: h) =
      if op.poolId = id then creditedBetween id t₁ t₂ h + callCredit t₁ t₂ s op else creditedBetween id t₁ t₂ h :=
  Component.replay_call he _ 0 h

theorem creditedBetween_idle {h : FarmHistory} {e : Event World (List Address) Farms FarmOp}
    (hnone : liquidityFarming.done s e = none) (id t₁ t₂ : Nat) :
    creditedBetween id t₁ t₂ ((s, e) :: h) = creditedBetween id t₁ t₂ h :=
  Component.replay_idle hnone _ 0 h

/-! ## The books -/

/-- The pools are sound: totals, positions and bounds. -/
structure FarmSound (g : Farms) (now : Nat) : Prop where
  stream : ∀ id pool, g.farmPool id = some pool → (g.stream id pool).Sound now
  liquidity : ∀ id p pos, g.farmingPosition id p = some pos → 0 < pos.liquidityAmount
  pending : ∀ id p pos, g.farmingPosition id p = some pos → 0 ≤ pos.pendingRewards
  rate : ∀ id pool, g.farmPool id = some pool → 0 ≤ pool.rewardRate
  total : ∀ id pool, g.farmPool id = some pool → pool.totalLiquidity ≤ i128Max

/-- Pools that nobody has joined. -/
structure Farms.Fresh (g : Farms) : Prop where
  position : ∀ id p, g.farmingPosition id p = none
  total : ∀ id pool, g.farmPool id = some pool → pool.totalLiquidity = 0
  rate : ∀ id pool, g.farmPool id = some pool → 0 ≤ pool.rewardRate

/-- What a call writes: the new position is settled, and the total is corrected by what the provider gained. -/
structure Rewritten (pool : LiquidityFarmPool) (now : Nat) (old new : Option FarmingPosition) (total' : Int) :
    Prop where
  settled : ∀ pos, new = some pos → pos.lastClaimTime = now
  liquidity : ∀ pos, new = some pos → 0 < pos.liquidityAmount
  pending : ∀ pos, new = some pos → 0 ≤ pos.pendingRewards
  total : total' = pool.totalLiquidity + held new - held old
  bounded : total' ≤ i128Max

/-- A removal lowers the total only while everybody else is settled, and takes the
last liquidity only when nothing is pending; added liquidity keeps the total in range. -/
def FarmsFairly (s : Situated World Farms) : FarmOp → Prop
  | .addLiquidity _ id x => ∀ pool ∈ s.store.farmPool id, pool.totalLiquidity + x ≤ i128Max
  | .compoundRewards p id => ∀ pool ∈ s.store.farmPool id, ∀ pos ∈ s.store.farmingPosition id p,
      pool.totalLiquidity + (pos.settled pool s.world.now).pendingRewards ≤ i128Max
  | .removeLiquidity p id x =>
    (∀ pool ∈ s.store.farmPool id, ∀ pos ∈ s.store.farmingPosition id p,
      x < pos.liquidityAmount ∨ (pos.settled pool s.world.now).pendingRewards = 0) ∧
        ∀ q ≠ p, ∀ other ∈ s.store.farmingPosition id q, other.lastClaimTime = s.world.now
  | .claimFarmingRewards _ _ => True

section

variable {g g' : Farms} {now : Nat} {id : Nat} {p : Address} {pool : LiquidityFarmPool} {pos : FarmingPosition}

theorem satI128_of_fits {x : Int} (h : FitsI128 x) : satI128 x = x := by
  obtain ⟨hmin, hmax⟩ := h
  unfold satI128
  omega

theorem held_none : held none = 0 := rfl

theorem held_some (pos : FarmingPosition) : held (some pos) = pos.liquidityAmount := rfl

/-- A position is at most its pool. -/
theorem FarmSound.liquidity_le (hg : FarmSound g now) (hpool : g.farmPool id = some pool)
    (hpos : g.farmingPosition id p = some pos) : pos.liquidityAmount ≤ pool.totalLiquidity := by
  have hstream := hg.stream id pool hpool
  have hle := hstream.total.entry_le hstream.amount p
  have hamount : (g.stream id pool).amount p = pos.liquidityAmount := by
    simp only [Farms.stream, hpos, held_some]
  rw [hamount] at hle
  exact hle

theorem FarmSound.settled_le (hg : FarmSound g now) (hpool : g.farmPool id = some pool)
    (hpos : g.farmingPosition id p = some pos) : pos.lastClaimTime ≤ now := by
  have hle := (hg.stream id pool hpool).settled p
  simp only [Farms.stream, hpos, held_some] at hle
  exact hle (hg.liquidity id p pos hpos).ne'

theorem FarmingPosition.accrued_nonneg (hrate : 0 ≤ pool.rewardRate) (hliquidity : 0 ≤ pos.liquidityAmount) :
    0 ≤ pos.accrued pool now := by
  unfold FarmingPosition.accrued
  split
  case isTrue htotal =>
    apply Int.tdiv_nonneg
    · apply Int.mul_nonneg
      · apply Int.tdiv_nonneg
        · exact Int.mul_nonneg (Int.mul_nonneg hrate (Int.natCast_nonneg _)) hliquidity
        · exact htotal.le
      · exact Int.natCast_nonneg _
    · decide
  case isFalse => exact le_rfl

theorem FarmSound.settled_pending (hg : FarmSound g now) (hpool : g.farmPool id = some pool)
    (hpos : g.farmingPosition id p = some pos) : 0 ≤ (pos.settled pool now).pendingRewards := by
  have hpending := hg.pending id p pos hpos
  have haccrued : 0 ≤ pos.accrued pool now :=
    FarmingPosition.accrued_nonneg (hg.rate id pool hpool) (hg.liquidity id p pos hpos).le
  have hmax : 0 ≤ i128Max := by decide
  unfold FarmingPosition.settled
  split
  · exact hpending
  · simp only [satI128]
    omega

variable {total' : Int} {new : Option FarmingPosition}

theorem Rewritten.of_some {old : Option FarmingPosition} (hnow : pos.lastClaimTime = now)
    (hliquidity : 0 < pos.liquidityAmount) (hpending : 0 ≤ pos.pendingRewards)
    (htotal : total' = pool.totalLiquidity + pos.liquidityAmount - held old) (hbounded : total' ≤ i128Max) :
    Rewritten pool now old (some pos) total' := by
  refine ⟨?_, ?_, ?_, htotal, hbounded⟩
  · rintro _ ⟨⟩
    exact hnow
  · rintro _ ⟨⟩
    exact hliquidity
  · rintro _ ⟨⟩
    exact hpending

theorem Rewritten.of_none (htotal : total' = pool.totalLiquidity - pos.liquidityAmount) (hbounded : total' ≤ i128Max) :
    Rewritten pool now (some pos) none total' := by
  refine ⟨fun _ hnew => ?_, fun _ hnew => ?_, fun _ hnew => ?_, ?_, hbounded⟩
  · cases hnew
  · cases hnew
  · cases hnew
  · rw [held_none, held_some, add_zero]
    exact htotal

theorem rewritten (hg : FarmSound g now) (hpool : g.farmPool id = some pool) {op : FarmOp} (hid : op.poolId = id)
    (hp : op.provider = p) (hr : Rewrites pool now (g.farmingPosition id p) op new total') {w : World}
    (hnow : w.now = now) (hok : FarmsFairly ⟨w, g⟩ op) : Rewritten pool now (g.farmingPosition id p) new total' := by
  have hmin : i128Min ≤ 0 := by decide
  have hmax := hg.total id pool hpool
  have hstream := hg.stream id pool hpool
  have htotal : 0 ≤ pool.totalLiquidity := hstream.total.nonneg hstream.amount
  generalize hold : g.farmingPosition id p = old at hr
  cases hr with
  | @opened _ _ x hx =>
    subst hid
    have hbound : pool.totalLiquidity + x ≤ i128Max := hok pool hpool
    have hfits : satI128 (pool.totalLiquidity + x) = pool.totalLiquidity + x := satI128_of_fits ⟨by omega, hbound⟩
    rw [hfits]
    refine .of_some rfl hx le_rfl ?_ hbound
    rw [held_none, sub_zero]
  | @added pos _ _ x hx =>
    subst hid
    have hbound : pool.totalLiquidity + x ≤ i128Max := hok pool hpool
    have hle := hg.liquidity_le hpool hold
    have hpositive := hg.liquidity _ p pos hold
    have hfits : satI128 (pool.totalLiquidity + x) = pool.totalLiquidity + x := satI128_of_fits ⟨by omega, hbound⟩
    have hfits' : satI128 (pos.liquidityAmount + x) = pos.liquidityAmount + x :=
      satI128_of_fits ⟨by omega, by omega⟩
    rw [hfits, hfits']
    refine .of_some (FarmingPosition.settled_lastClaimTime (hg.settled_le hpool hold) pool) ?_
      (hg.settled_pending hpool hold) ?_ hbound
    · dsimp only
      omega
    · simp only [held_some]
      omega
  | @removed pos _ _ x hx hle =>
    have hle' := hg.liquidity_le hpool hold
    have hfits : satI128 (pool.totalLiquidity - x) = pool.totalLiquidity - x := satI128_of_fits ⟨by omega, by omega⟩
    have hfits' : satI128 (pos.liquidityAmount - x) = pos.liquidityAmount - x :=
      satI128_of_fits ⟨by omega, by omega⟩
    rw [hfits, hfits']
    by_cases hrest : 0 < pos.liquidityAmount - x
    · rw [if_pos hrest]
      refine .of_some (FarmingPosition.settled_lastClaimTime (hg.settled_le hpool hold) pool) hrest
        (hg.settled_pending hpool hold) ?_ (by omega)
      simp only [held_some]
      omega
    · rw [if_neg hrest]
      exact .of_none (by omega) (by omega)
  | @claimed pos =>
    refine .of_some (FarmingPosition.settled_lastClaimTime (hg.settled_le hpool hold) pool) ?_ le_rfl ?_ hmax
    · simp only [FarmingPosition.settled_liquidityAmount]
      exact hg.liquidity id p pos hold
    · simp only [held_some, FarmingPosition.settled_liquidityAmount]
      omega
  | @compounded pos _ _ hsome =>
    subst hid hp hnow
    have hbound : pool.totalLiquidity + (pos.settled pool w.now).pendingRewards ≤ i128Max := hok pool hpool pos hold
    have hle := hg.liquidity_le hpool hold
    have hpositive := hg.liquidity _ _ pos hold
    have hfits : satI128 (pool.totalLiquidity + (pos.settled pool w.now).pendingRewards) =
        pool.totalLiquidity + (pos.settled pool w.now).pendingRewards := satI128_of_fits ⟨by omega, hbound⟩
    have hfits' : satI128 (pos.liquidityAmount + (pos.settled pool w.now).pendingRewards) =
        pos.liquidityAmount + (pos.settled pool w.now).pendingRewards := satI128_of_fits ⟨by omega, by omega⟩
    rw [hfits, hfits']
    refine .of_some (FarmingPosition.settled_lastClaimTime (hg.settled_le hpool hold) pool) ?_ le_rfl ?_ hbound
    · dsimp only
      omega
    · simp only [held_some]
      omega

/-! ### One call -/

/-- The stream after a call: the provider is settled, and holds what the new position holds. -/
theorem stream_written (hr : Rewritten pool now (g.farmingPosition id p) new total')
    (hposition : g'.farmingPosition = update g.farmingPosition id (update (g.farmingPosition id) p new)) :
    (((g.stream id pool).settle p now).hold p (held new)).Same
      (g'.stream id { pool with totalLiquidity := total' }) := by
  have hself : g'.farmingPosition id = update (g.farmingPosition id) p new := by rw [hposition, update_self]
  constructor
  · funext q
    simp only [Farms.stream, Stream.hold, Stream.settle, hself]
    exact apply_update (fun _ => held) (g.farmingPosition id) p new q
  · intro q hq
    by_cases hqp : q = p
    · subst hqp
      cases hnew : new with
      | none =>
        rw [hnew] at hq
        simp [Stream.hold, held_none] at hq
      | some pos => simp [Farms.stream, Stream.hold, Stream.settle, hself, hnew, hr.settled pos hnew]
    · simp [Farms.stream, Stream.hold, Stream.settle, hself, hqp]
  · exact hr.total

theorem stream_other {other : Nat} (hne : other ≠ id)
    (hposition : g'.farmingPosition = update g.farmingPosition id (update (g.farmingPosition id) p new)) :
    g'.stream other pool = g.stream other pool := by
  simp only [Farms.stream, hposition, update_of_ne hne]

theorem FarmSound.written (hg : FarmSound g now) (hpool : g.farmPool id = some pool)
    (hr : Rewritten pool now (g.farmingPosition id p) new total')
    (hfarm : g'.farmPool = update g.farmPool id (some { pool with totalLiquidity := total' }))
    (hposition : g'.farmingPosition = update g.farmingPosition id (update (g.farmingPosition id) p new)) :
    FarmSound g' now := by
  have hpos : ∀ i q pos, g'.farmingPosition i q = some pos → new = some pos ∨ g.farmingPosition i q = some pos := by
    intro i q pos hstored
    rw [hposition] at hstored
    by_cases hi : i = id
    · rw [hi, update_self, update_apply] at hstored
      split at hstored
      · exact .inl hstored
      · rw [hi]
        exact .inr hstored
    · rw [update_of_ne hi] at hstored
      exact .inr hstored
  have hnew : 0 ≤ held new := by
    cases hn : new with
    | none => exact le_rfl
    | some pos => exact (hr.liquidity pos hn).le
  have hpools : ∀ i pool', g'.farmPool i = some pool' →
      i = id ∧ pool' = { pool with totalLiquidity := total' } ∨ i ≠ id ∧ g.farmPool i = some pool' := by
    intro i pool' hi
    rw [hfarm, update_apply] at hi
    split at hi
    case isTrue heq =>
      cases hi
      exact .inl ⟨heq, rfl⟩
    case isFalse hne => exact .inr ⟨hne, hi⟩
  constructor
  · intro i pool' hi
    rcases hpools i pool' hi with ⟨rfl, rfl⟩ | ⟨hne, hi⟩
    · refine (stream_written hr hposition).sound (((hg.stream i pool hpool).settle p).hold hnew ?_)
      simp [Stream.settle]
    · rw [stream_other hne hposition]
      exact hg.stream i pool' hi
  · intro i q pos hstored
    rcases hpos i q pos hstored with hn | hold
    · exact hr.liquidity pos hn
    · exact hg.liquidity i q pos hold
  · intro i q pos hstored
    rcases hpos i q pos hstored with hn | hold
    · exact hr.pending pos hn
    · exact hg.pending i q pos hold
  · intro i pool' hi
    rcases hpools i pool' hi with ⟨rfl, rfl⟩ | ⟨-, hi⟩
    · exact hg.rate i pool hpool
    · exact hg.rate i pool' hi
  · intro i pool' hi
    rcases hpools i pool' hi with ⟨rfl, rfl⟩ | ⟨-, hi⟩
    · exact hr.bounded
    · exact hg.total i pool' hi

/-! ### What is credited -/

/-- A settlement credits no more than the position's part of the rate. -/
theorem FarmingPosition.credit_mul_le (hrate : 0 ≤ pool.rewardRate) (hliquidity : 0 ≤ pos.liquidityAmount)
    (htotal : 0 < pool.totalLiquidity) (hpending : 0 ≤ pos.pendingRewards) :
    pos.credit pool now * 1000 * pool.totalLiquidity ≤
      pool.rewardRate * pool.seasonMultiplier * ((now - pos.lastClaimTime : Nat) : Int) * pos.liquidityAmount := by
  have hmin : i128Min ≤ 0 := by decide
  have haccrued : 0 ≤ pos.accrued pool now := FarmingPosition.accrued_nonneg hrate hliquidity
  have hearned : 0 ≤ pool.rewardRate * ((now - pos.lastClaimTime : Nat) : Int) * pos.liquidityAmount :=
    Int.mul_nonneg (Int.mul_nonneg hrate (Int.natCast_nonneg _)) hliquidity
  have hcredit : pos.credit pool now ≤ pos.accrued pool now := by
    simp only [FarmingPosition.credit, FarmingPosition.settled]
    split
    · omega
    · simp only [satI128]
      omega
  have hmult : (0 : Int) ≤ pool.seasonMultiplier := Int.natCast_nonneg _
  rw [FarmingPosition.accrued, if_pos htotal] at hcredit
  set share := (pool.rewardRate * ((now - pos.lastClaimTime : Nat) : Int) * pos.liquidityAmount).tdiv
    pool.totalLiquidity with hshare
  have hwhole : share * pool.totalLiquidity ≤
      pool.rewardRate * ((now - pos.lastClaimTime : Nat) : Int) * pos.liquidityAmount := tdiv_mul_le hearned htotal
  have hscaled : (share * pool.seasonMultiplier).tdiv 1000 * 1000 ≤ share * pool.seasonMultiplier :=
    tdiv_mul_le (Int.mul_nonneg (Int.tdiv_nonneg hearned htotal.le) hmult) (by decide)
  have hthousand : pos.credit pool now * 1000 ≤ share * pool.seasonMultiplier := by omega
  calc pos.credit pool now * 1000 * pool.totalLiquidity
      ≤ share * pool.seasonMultiplier * pool.totalLiquidity := Int.mul_le_mul_of_nonneg_right hthousand htotal.le
    _ = share * pool.totalLiquidity * pool.seasonMultiplier := by ring
    _ ≤ pool.rewardRate * ((now - pos.lastClaimTime : Nat) : Int) * pos.liquidityAmount * pool.seasonMultiplier :=
      Int.mul_le_mul_of_nonneg_right hwhole hmult
    _ = _ := by ring

/-- The same for the part of the credit that falls into a window. -/
theorem FarmingPosition.creditBetween_mul_le (hrate : 0 ≤ pool.rewardRate) (hliquidity : 0 ≤ pos.liquidityAmount)
    (htotal : 0 < pool.totalLiquidity) (hpending : 0 ≤ pos.pendingRewards) (hle : pos.lastClaimTime ≤ now)
      (t₁ t₂ : Nat) :
    pos.creditBetween pool now t₁ t₂ * pool.totalLiquidity ≤ pool.rate *
      (pos.liquidityAmount * (windowed t₁ t₂ now - windowed t₁ t₂ pos.lastClaimTime) : Int) := by
  rcases hle.eq_or_lt with heq | hlt
  · simp [FarmingPosition.creditBetween, heq]
  have helapsed : (0 : ℚ) < ((now - pos.lastClaimTime : Nat) : ℚ) := by
    exact_mod_cast Nat.sub_pos_of_lt hlt
  have hwindow : (0 : ℚ) ≤ ((windowed t₁ t₂ now - windowed t₁ t₂ pos.lastClaimTime : Int) : ℚ) := by
    exact_mod_cast Int.sub_nonneg.2 (windowed_mono t₁ t₂ hle)
  have hcredit : (pos.credit pool now : ℚ) * pool.totalLiquidity ≤
      pool.rate * ((now - pos.lastClaimTime : Nat) : ℚ) * pos.liquidityAmount := by
    have hcast : ((pos.credit pool now * 1000 * pool.totalLiquidity : Int) : ℚ) ≤
        ((pool.rewardRate * pool.seasonMultiplier * ((now - pos.lastClaimTime : Nat) : Int)
          * pos.liquidityAmount : Int) :
          ℚ) := by
      exact_mod_cast FarmingPosition.credit_mul_le hrate hliquidity htotal hpending
    rw [LiquidityFarmPool.rate]
    push_cast at hcast ⊢
    linarith
  rw [FarmingPosition.creditBetween, div_mul_eq_mul_div, div_le_iff₀ helapsed]
  calc (pos.credit pool now : ℚ) * _ * pool.totalLiquidity
      = (pos.credit pool now * pool.totalLiquidity) *
        ((windowed t₁ t₂ now - windowed t₁ t₂ pos.lastClaimTime : Int) : ℚ) := by ring
    _ ≤ (pool.rate * ((now - pos.lastClaimTime : Nat) : ℚ) * pos.liquidityAmount) *
        ((windowed t₁ t₂ now - windowed t₁ t₂ pos.lastClaimTime : Int) : ℚ) :=
      mul_le_mul_of_nonneg_right hcredit hwindow
    _ = _ := by
      push_cast
      ring

theorem rate_nonneg (hrate : 0 ≤ pool.rewardRate) : 0 ≤ pool.rate := by
  have hcast : (0 : ℚ) ≤ pool.rewardRate := by exact_mod_cast hrate
  exact div_nonneg (mul_nonneg hcast (Nat.cast_nonneg _)) (by norm_num)

/-- Only a removal lowers the total. -/
theorem Rewrites.grows {old : Option FarmingPosition} {op : FarmOp} (hr : Rewrites pool now old op new total')
    (hmax : pool.totalLiquidity ≤ i128Max) : pool.totalLiquidity ≤ total' ∨ ∃ q i x, op = .removeLiquidity q i x := by
  cases hr with
  | opened hx =>
    simp only [satI128]
    omega
  | added hx =>
    simp only [satI128]
    omega
  | removed => exact .inr ⟨_, _, _, rfl⟩
  | claimed => exact .inl le_rfl
  | compounded hsome =>
    simp only [satI128]
    omega

theorem Rewrites.removal {old : Option FarmingPosition} {x : Int} {q : Address} {i : Nat}
    (hr : Rewrites pool now old (.removeLiquidity q i x) new total') : ∃ pos, old = some pos := by
  cases hr with
  | removed => exact ⟨_, rfl⟩

/-! ### What a run emits -/

/-- Every pool has emitted no more than its rate. -/
def FarmEmitted (h : FarmHistory) (g : Farms) (now : Nat) : Prop :=
  ∀ id pool, g.farmPool id = some pool → ∀ t₁ t₂,
    (g.stream id pool).Emitted (windowed t₁ t₂) pool.rate (creditedBetween id t₁ t₂ h) now

variable {h : FarmHistory} {s : Situated World Farms} {signers : List Address} {op : FarmOp} {t : Farms}

theorem farmEffect_of (he : liquidityFarming.exec s signers op = some t) : FarmEffect s.world.now s.store t op :=
  Component.exec_yields (Q := fun t => FarmEffect s.world.now s.store t op) (yields_farmOp op s.store) he

theorem FarmSound.call (hg : FarmSound s.store s.world.now) (hok : FarmsFairly s op)
    (he : liquidityFarming.exec s signers op = some t) : FarmSound t s.world.now := by
  cases farmEffect_of he with
  | written hpool hr hfarm hposition =>
    exact hg.written hpool (rewritten hg hpool rfl rfl hr rfl hok) hfarm hposition
  | nothing _ _ _ _ hsame =>
    rw [hsame]
    exact hg

/-- What is credited where nothing is written: nothing. -/
theorem callCredit_nothing (hg : FarmSound s.store s.world.now) (hpool : s.store.farmPool op.poolId = some pool)
    (hpos : s.store.farmingPosition op.poolId op.provider = some pos)
    (hnothing : (pos.settled pool s.world.now).pendingRewards ≤ 0) (t₁ t₂ : Nat) : callCredit t₁ t₂ s op = 0 := by
  have hpending := hg.pending _ _ pos hpos
  have haccrued : 0 ≤ pos.accrued pool s.world.now :=
    FarmingPosition.accrued_nonneg (hg.rate _ pool hpool) (hg.liquidity _ _ pos hpos).le
  have hmax : 0 < i128Max := by decide
  have hzero : pos.credit pool s.world.now = 0 := by
    unfold FarmingPosition.credit
    unfold FarmingPosition.settled at hnothing ⊢
    split at hnothing
    case isTrue helapsed =>
      rw [if_pos helapsed, sub_self]
    case isFalse helapsed =>
      rw [if_neg helapsed]
      simp only [satI128] at hnothing ⊢
      omega
  simp only [callCredit, hpool, hpos, FarmingPosition.creditBetween, hzero]
  simp

theorem FarmEmitted.call (hemitted : FarmEmitted h s.store s.world.now) (hg : FarmSound s.store s.world.now)
    (hok : FarmsFairly s op) (he : liquidityFarming.exec s signers op = some t) :
    FarmEmitted ((s, .call signers op) :: h) t s.world.now := by
  intro id pool' hid t₁ t₂
  rw [creditedBetween_call he]
  cases farmEffect_of he with
  | nothing hpool hpos hnothing _ hsame =>
    rw [hsame] at hid ⊢
    rw [callCredit_nothing hg hpool hpos hnothing, add_zero, ite_self]
    exact hemitted id pool' hid t₁ t₂
  | @written pool new total' hpool hr hfarm hposition =>
    rw [hfarm, update_apply] at hid
    split at hid
    case isFalse hne =>
      rw [if_neg (Ne.symm hne), stream_other hne hposition]
      exact hemitted id pool' hid t₁ t₂
    case isTrue heq =>
      subst heq
      cases hid
      rw [if_pos rfl]
      have hrewritten := rewritten hg hpool rfl rfl hr rfl hok
      have hstream := hg.stream _ pool hpool
      refine (stream_written hrewritten hposition).emitted ?_
      have hsettled : ((s.store.stream op.poolId pool).settle op.provider s.world.now).Emitted (windowed t₁ t₂)
          pool.rate
          (creditedBetween op.poolId t₁ t₂ h + callCredit t₁ t₂ s op) s.world.now := by
        refine (hemitted _ pool hpool t₁ t₂).settle hstream (windowed_mono t₁ t₂) (rate_nonneg (hg.rate _ pool hpool))
          ?_ ?_
        · intro hnone
          cases hpos : s.store.farmingPosition op.poolId op.provider with
          | none => simp only [callCredit, hpool, hpos]
          | some pos =>
            have hpositive := hg.liquidity _ _ pos hpos
            simp only [Farms.stream, hpos, held_some] at hnone
            omega
        · cases hpos : s.store.farmingPosition op.poolId op.provider with
          | none => simp [callCredit, hpool, hpos, Farms.stream, held_none]
          | some pos =>
            have hpositive := hg.liquidity _ _ pos hpos
            have hle := hg.liquidity_le hpool hpos
            simp only [callCredit, hpool, hpos, Farms.stream, held_some]
            exact FarmingPosition.creditBetween_mul_le (hg.rate _ pool hpool) hpositive.le (by omega)
              (hg.pending _ _ pos hpos) (hg.settled_le hpool hpos) t₁ t₂
      have hself : ((s.store.stream op.poolId pool).settle op.provider s.world.now).settled op.provider =
          s.world.now := by
        simp [Stream.settle]
      rcases hr.grows (hg.total _ pool hpool) with hgrows | ⟨q, i, x, rfl⟩
      · refine hsettled.increase (hstream.settle op.provider) hself ?_
        have hheld := hrewritten.total
        simp only [Stream.settle, Farms.stream]
        omega
      · -- everybody who shares the pool is settled at this moment
        refine hsettled.decrease (hstream.settle _) (fun r hshares => ?_) hself ?_
        · by_cases hrq : r = q
          · rw [hrq]
            exact hself
          · obtain ⟨pos, hpos⟩ := hr.removal
            obtain ⟨-, hothers⟩ := hok
            cases hother : s.store.farmingPosition i r with
            | none => simp [Stream.settle, Farms.stream, FarmOp.poolId, hother, held_none] at hshares
            | some other =>
              simp only [Stream.settle, Farms.stream, FarmOp.poolId, FarmOp.provider, update_of_ne hrq, hother]
              exact hothers r hrq other hother
        · cases hn : new with
          | none => exact le_rfl
          | some pos => exact (hrewritten.liquidity pos hn).le

end

/-! ## The farm -/

/-- What the provider can claim. -/
def Farms.claimable (g : Farms) (id : Nat) (p : Address) (now : Nat) : Int :=
  match g.farmPool id, g.farmingPosition id p with
  | some pool, some pos => (pos.settled pool now).pendingRewards
  | _, _ => 0

/-- Removing liquidity leaves the provider what it has earned. -/
def KeepsEarned (s : Situated World Farms) (e : Event World (List Address) Farms FarmOp) : Prop :=
  ∀ p id x t, liquidityFarming.done s e = some (.removeLiquidity p id x, t) →
    t.claimable id p s.world.now = s.store.claimable id p s.world.now

/-- The totals are right, the rewards for any time are within the rate, and nobody
has lost rewards by leaving. -/
structure FarmControlled (h : FarmHistory) (g : Farms) : Prop where
  total : ∀ id pool, g.farmPool id = some pool → Totals (fun p => held (g.farmingPosition id p)) pool.totalLiquidity
  emission : ∀ id pool, g.farmPool id = some pool → ∀ t₁ t₂ : Nat, t₁ < t₂ →
    creditedBetween id t₁ t₂ h ≤ pool.rewardRate * (t₂ - t₁) * pool.seasonMultiplier / 1000
  kept : Along KeepsEarned h

section

variable {h : FarmHistory} {s : Situated World Farms} {signers : List Address} {op : FarmOp} {t : Farms}

theorem keepsEarned_call (hg : FarmSound s.store s.world.now) (hok : FarmsFairly s op)
    (he : liquidityFarming.exec s signers op = some t) : KeepsEarned s (.call signers op) := by
  intro p id x t' hdone
  rw [Component.done_call he] at hdone
  cases hdone
  cases farmEffect_of he with
  | nothing _ _ _ hop => cases hop
  | @written pool new total' hpool hr hfarm hposition =>
    have hrewritten := rewritten hg hpool rfl rfl hr rfl hok
    obtain ⟨pos, hpos⟩ := hr.removal
    have hrest := hok.1 pool hpool pos hpos
    have hmin : i128Min ≤ 0 := by decide
    have hmax := hg.total _ pool hpool
    have hle := hg.liquidity_le hpool hpos
    have hafter : t.farmingPosition id p = new := by
      rw [hposition]
      simp [FarmOp.poolId, FarmOp.provider]
    have hpool' : t.farmPool id = some { pool with totalLiquidity := total' } := by
      rw [hfarm]
      simp [FarmOp.poolId]
    have hbefore : s.store.claimable id p s.world.now = (pos.settled pool s.world.now).pendingRewards := by
      change s.store.farmPool id = some pool at hpool
      change s.store.farmingPosition id p = some pos at hpos
      simp only [Farms.claimable, hpool, hpos]
    rw [hbefore]
    simp only [Farms.claimable, hpool', hafter]
    rw [hpos] at hr
    cases hr with
    | removed hx hx' =>
      have hfits : satI128 (pos.liquidityAmount - x) = pos.liquidityAmount - x :=
        satI128_of_fits ⟨by omega, by omega⟩
      rw [hfits] at hrewritten ⊢
      by_cases hleft : 0 < pos.liquidityAmount - x
      · rw [if_pos hleft] at hrewritten ⊢
        dsimp only
        rw [FarmingPosition.settled_again (hrewritten.settled _ rfl)]
      · rw [if_neg hleft]
        rcases hrest with hmore | hnothing
        · omega
        · exact hnothing.symm

/-- From pools that nobody has joined, the farm emits no more than its rate and
keeps what was earned, if liquidity is removed fairly. -/
theorem farm_emission_bounded {world : World} {g : Farms} (hfresh : g.Fresh)
    (hr : Run liquidityFarming.Step ⟨world, g⟩ h s) (hok : Along (liquidityFarming.WhenDone FarmsFairly) h) :
    FarmControlled h s.store := by
  have hstart : FarmSound g world.now := by
    constructor
    · intro id pool hpool
      have hamount : (g.stream id pool).amount = fun _ => 0 := by
        funext p
        simp only [Farms.stream, hfresh.position, held_none]
      refine ⟨Totals.zero.congr hamount (hfresh.total id pool hpool), fun p => ?_, fun p hp => ?_⟩
      · rw [hamount]
      · rw [hamount] at hp
        exact (hp rfl).elim
    · intro id p pos hpos
      rw [hfresh.position] at hpos
      cases hpos
    · intro id p pos hpos
      rw [hfresh.position] at hpos
      cases hpos
    · exact hfresh.rate
    · intro id pool hpool
      rw [hfresh.total id pool hpool]
      decide
  have hbegin : FarmEmitted [] g world.now := by
    intro id pool hpool t₁ t₂
    refine Stream.emitted_empty ?_ (hfresh.total id pool hpool) (rate_nonneg (hfresh.rate id pool hpool))
      (windowed_nonneg t₁ t₂ _)
    funext p
    simp only [Farms.stream, hfresh.position, held_none]
  have hbooks : FarmSound s.store s.world.now ∧ FarmEmitted h s.store s.world.now ∧ Along KeepsEarned h := by
    refine Component.inv_throughout
      (I := fun h s => FarmSound s.store s.world.now ∧ FarmEmitted h s.store s.world.now ∧ Along KeepsEarned h)
      ?_ ?_ ?_ hr hok.throughout
    · exact ⟨hstart, hbegin, fun _ hmem => (List.not_mem_nil hmem).elim⟩
    · rintro h s signers op t - ⟨hsound, hemitted, hkept⟩ hfair he
      exact ⟨hsound.call hfair he, hemitted.call hsound hfair he,
        List.forall_mem_cons.2 ⟨keepsEarned_call hsound hfair he, hkept⟩⟩
    · intro h s e s' ⟨hsound, hemitted, hkept⟩ hnone hsame
      have hlater : s.world.now ≤ s'.world.now ∧ s'.store = s.store := by
        rcases hsame with rfl | ⟨hnow, -, hsame⟩
        · exact ⟨le_rfl, rfl⟩
        · exact ⟨hnow, hsame⟩
      obtain ⟨hnow, hstore⟩ := hlater
      rw [hstore]
      refine ⟨⟨fun id pool hpool => (hsound.stream id pool hpool).later hnow, hsound.liquidity, hsound.pending,
        hsound.rate, hsound.total⟩, fun id pool hpool t₁ t₂ => ?_, List.forall_mem_cons.2 ⟨?_, hkept⟩⟩
      · rw [creditedBetween_idle hnone]
        exact (hemitted id pool hpool t₁ t₂).later (windowed_mono t₁ t₂) (rate_nonneg (hsound.rate id pool hpool)) hnow
      · intro p id x t hdone
        rw [hnone] at hdone
        cases hdone
  obtain ⟨hsound, hemitted, hkept⟩ := hbooks
  refine ⟨fun id pool hpool => (hsound.stream id pool hpool).total, fun id pool hpool t₁ t₂ hlt => ?_, hkept⟩
  have hrate := rate_nonneg (hsound.rate id pool hpool)
  have hwindow : ((windowed t₁ t₂ s.world.now : Int) : ℚ) ≤ t₂ - t₁ := by
    exact_mod_cast windowed_le hlt.le s.world.now
  calc creditedBetween id t₁ t₂ h ≤ pool.rate * windowed t₁ t₂ s.world.now := (hemitted id pool hpool t₁ t₂).bounded
    _ ≤ pool.rate * (t₂ - t₁) := mul_le_mul_of_nonneg_left hwindow hrate
    _ = _ := by
      rw [LiquidityFarmPool.rate]
      ring

end

/-- A position is written only by its provider's calls. -/
theorem position_other {signers : List Address} {op : FarmOp} {t : Farms}
    (he : liquidityFarming.exec s signers op = some t) {q : Address} (hq : q ≠ op.provider) (id : Nat) :
    t.farmingPosition id q = s.store.farmingPosition id q := by
  cases farmEffect_of he with
  | nothing _ _ _ _ hsame => rw [hsame]
  | written _ _ _ hposition =>
    rw [hposition, update_apply]
    split
    case isTrue hid => rw [update_of_ne hq, hid]
    case isFalse => rfl

theorem after_position_other {signers : List Address} {op : FarmOp} {q : Address} (hq : q ≠ op.provider) (id : Nat) :
    (liquidityFarming.after s signers op).store.farmingPosition id q = s.store.farmingPosition id q := by
  cases he : liquidityFarming.exec s signers op with
  | none => rw [Component.after, he, Option.getD_none]
  | some t =>
    rw [Component.after, he, Option.getD_some]
    exact position_other he hq id

theorem perform_position_other {q : Address} {acts : List (Component.Act (List Address) FarmOp)}
    (hacts : ∀ signers op, Component.Act.call signers op ∈ acts → q ≠ op.provider) (id : Nat) :
    (liquidityFarming.perform World.later s acts).store.farmingPosition id q = s.store.farmingPosition id q := by
  induction acts generalizing s with
  | nil => rfl
  | cons a acts ih =>
    refine (ih fun signers op hmem => hacts signers op (List.mem_cons_of_mem a hmem)).trans ?_
    cases a with
    | call signers op => exact after_position_other (hacts signers op List.mem_cons_self) id
    | wait secs => rfl

/-- Pool 1 pays 10 a second. -/
def sampleFarms : Farms :=
  { farmPool := fun id =>
      if id = 1 then
        some { poolId := 1, token := 100, totalLiquidity := 0, totalRewards := 0, rewardRate := 10, createdAt := 0
               currentSeason := 1, seasonMultiplier := 1000, active := true }
      else none
    farmingPosition := fun _ _ => none }

theorem sampleFarms_fresh : sampleFarms.Fresh := by
  have hpools : ∀ id pool, sampleFarms.farmPool id = some pool → pool.totalLiquidity = 0 ∧ pool.rewardRate = 10 := by
    intro id pool hpool
    simp only [sampleFarms] at hpool
    split at hpool
    · cases hpool
      exact ⟨rfl, rfl⟩
    · cases hpool
  refine ⟨fun _ _ => rfl, fun id pool hpool => (hpools id pool hpool).1, fun id pool hpool => ?_⟩
  rw [(hpools id pool hpool).2]
  decide

/-- Accounts 2 and 3 add liquidity, and 100 seconds pass. -/
def twoProviders : List (Component.Act (List Address) FarmOp) :=
  [.call [2] (.addLiquidity 2 1 100), .call [3] (.addLiquidity 3 1 100), .wait 100]

def afterTwoProviders : Situated World Farms :=
  liquidityFarming.perform World.later ⟨sampleWorld, sampleFarms⟩ twoProviders

def twoProvidersHistory : FarmHistory :=
  liquidityFarming.record World.later ⟨sampleWorld, sampleFarms⟩ [] twoProviders

theorem run_twoProviders : Run liquidityFarming.Step ⟨sampleWorld, sampleFarms⟩ twoProvidersHistory afterTwoProviders :=
  Component.run_perform (C := liquidityFarming) World.later (fun _ _ _ => ⟨Nat.le_add_right _ _, rfl, rfl⟩) .nil _

/-- Account 2 claims, and account 3 removes half of its liquidity when account 2 is settled. -/
theorem farm_emission_settled :
    let s := liquidityFarming.after afterTwoProviders [2] (.claimFarmingRewards 2 1)
    FarmControlled ((s, .call [3] (.removeLiquidity 3 1 50)) ::
      (afterTwoProviders, .call [2] (.claimFarmingRewards 2 1)) :: twoProvidersHistory)
      (liquidityFarming.after s [3] (.removeLiquidity 3 1 50)).store := by
  intro s
  refine farm_emission_bounded sampleFarms_fresh
    ((run_twoProviders.snoc (.call _ [2] (.claimFarmingRewards 2 1))).snoc (.call _ [3] (.removeLiquidity 3 1 50))) ?_
  have hothers : ∀ q ≠ 3, ∀ other ∈ s.store.farmingPosition 1 q, other.lastClaimTime = s.world.now := by
    intro q hq other hother
    by_cases htwo : q = 2
    · subst htwo
      exact (by decide +kernel : ∀ other ∈ s.store.farmingPosition 1 2, other.lastClaimTime = s.world.now) other hother
    · have hcalls : ∀ signers op, Component.Act.call signers op ∈ twoProviders → q ≠ op.provider := by
        intro signers op hmem
        have hop : signers = [2] ∧ op = .addLiquidity 2 1 100 ∨ signers = [3] ∧ op = .addLiquidity 3 1 100 := by
          simpa [twoProviders] using hmem
        rcases hop with ⟨-, rfl⟩ | ⟨-, rfl⟩
        · exact htwo
        · exact hq
      have hnobody : s.store.farmingPosition 1 q = none :=
        (after_position_other htwo 1).trans (perform_position_other hcalls 1)
      rw [hnobody] at hother
      cases hother
  have hremoval : FarmsFairly s (.removeLiquidity 3 1 50) := ⟨by decide +kernel, hothers⟩
  refine List.forall_mem_cons.2 ⟨Component.whenDone_call hremoval _, List.forall_mem_cons.2
    ⟨Component.whenDone_call trivial _, List.forall_mem_cons.2 ⟨?_, List.forall_mem_cons.2
      ⟨Component.whenDone_call ?_ _, List.forall_mem_cons.2 ⟨Component.whenDone_call ?_ _, ?_⟩⟩⟩⟩⟩
  · rintro _ ⟨⟩
  · simp only [FarmsFairly]
    decide +kernel
  · simp only [FarmsFairly]
    decide +kernel
  · exact fun _ hmem => (List.not_mem_nil hmem).elim

/-- Account 3 leaves without its rewards, and account 2 is paid as if it had been alone all the time. -/
theorem farm_emission_exceeded :
    ¬ ∀ world g h s, g.Fresh → Run liquidityFarming.Step ⟨world, g⟩ h s → FarmControlled h s.store := by
  intro hclaim
  have hr := (run_twoProviders.snoc (.call _ [3] (.removeLiquidity 3 1 100))).snoc
      (.call _ [2] (.claimFarmingRewards 2 1))
  have hcontrolled := hclaim _ _ _ _ sampleFarms_fresh hr
  have hbound : ∀ pool ∈ (liquidityFarming.after
      (liquidityFarming.after afterTwoProviders [3] (.removeLiquidity 3 1 100))
      [2] (.claimFarmingRewards 2 1)).store.farmPool 1, pool.rewardRate = 10 ∧ pool.seasonMultiplier = 1000 := by
    decide +kernel
  have hstored : ((liquidityFarming.after (liquidityFarming.after afterTwoProviders [3] (.removeLiquidity 3 1 100))
      [2] (.claimFarmingRewards 2 1)).store.farmPool 1).isSome := by
    decide +kernel
  obtain ⟨pool, hpool⟩ := Option.isSome_iff_exists.1 hstored
  obtain ⟨hrate, hmultiplier⟩ := hbound pool hpool
  have hemission := hcontrolled.emission 1 pool hpool 1000000 1000100 (by decide)
  rw [hrate, hmultiplier] at hemission
  exact absurd hemission (by decide +kernel)

end QuorumCredit
