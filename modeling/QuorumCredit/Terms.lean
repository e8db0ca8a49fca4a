import QuorumCredit.Vouch
/-!
# Yield, interest and covenants

The terms of a loan: what each voucher earns on it (`loan.rs`, `cache.rs`,
`bridge.rs`), how interest accrues and milestones discount it (`helpers.rs`),
the insurance fee, and the covenant check that guards issue and repayment
(`covenant_monitoring.rs`).
-/

open Host Function

namespace QuorumCredit

/-! ## Yield -/

def vouchAgeBonusMinSecs : Nat := 30 * 24 * 60 * 60
def vouchAgeBonusPeriodSecs : Nat := 30 * 24 * 60 * 60
def vouchAgeBonusBpsPerPeriod : Int := 25
def vouchAgeBonusMaxBps : Int := 200
def reliabilityMaxBps : Int := 150
def cacheTtlSecs : Nat := 3600

def ageBonus (now : Nat) (v : VouchRecord) : Int :=
  let age := now - v.vouchTimestamp
  if vouchAgeBonusMinSecs ≤ age then
    min (((age / vouchAgeBonusPeriodSecs : Nat) : Int) * vouchAgeBonusBpsPerPeriod) vouchAgeBonusMaxBps
  else 0

/-- +10 bps a repayment, -20 bps a default, within [0, 100]. -/
def reputationBonus (repayments defaults : Nat) : Int :=
  min (max ((repayments : Int) * 10 - (defaults : Int) * 20) 0) reputationBonusMaxBps

def voucherReputationBonus : Option VoucherStats → Int
  | some s => min ((s.successfulVouches : Int) * 10) reputationBonusMaxBps
  | none => 0

def reliabilityBonus : Option VoucherStats → Int
  | some s =>
    if s.totalVouchesSlashed = 0 ∧ 0 < s.successfulVouches then reliabilityMaxBps
    else if 0 < s.totalVouchesSlashed ∨ 0 < s.successfulVouches then
      let total : Int := s.successfulVouches + s.totalVouchesSlashed
      (reliabilityMaxBps * ((s.successfulVouches : Int) * bpsDenominator).tdiv total).tdiv bpsDenominator
    else 0
  | none => 0

/-- +50 bps for each distinct borrower after the first, up to 500; -50 with no history. -/
def diversificationBonus (history : List Address) : Int :=
  min ((history.eraseDups.length - 1 : Int) * 50) 500

def vouchYieldBpsUncached (v : VouchRecord) (repayments defaults : Nat) : Contract Vouching Int := do
  let ctx ← ask
  let stats ← look (·.voucherStats v.voucher)
  let history ← look (·.voucherHistory v.voucher)
  let bps ← i128 .arithmetic (ctx.config.yieldBps + ageBonus ctx.now v + reputationBonus repayments defaults
    + voucherReputationBonus stats + reliabilityBonus stats + diversificationBonus history)
  return max bps 0

/-- `get_cached_yield`: the cached rate, unless the base rate changed or it is too old. -/
def getCachedYield (borrower voucher : Address) (baseYieldBps : Int) : Contract Vouching (Option Int) := do
  let ctx ← ask
  let entry ← look (·.yieldCache borrower voucher)
  match entry with
  | none => return none
  | some e =>
    if e.baseYieldBps ≠ baseYieldBps then return none
    else if cacheTtlSecs < ctx.now - e.cachedAt then return none
    else return some e.yieldBps

def vouchYieldBps (borrower : Address) (v : VouchRecord) (repayments defaults : Nat) : Contract Vouching Int := do
  let ctx ← ask
  match ← getCachedYield borrower v.voucher ctx.config.yieldBps with
  | some cached => return cached
  | none => do
    let yieldBps ← vouchYieldBpsUncached v repayments defaults
    let entry : CachedYield := { yieldBps, baseYieldBps := ctx.config.yieldBps, cachedAt := ctx.now }
    alter fun x =>
      { x with yieldCache := update x.yieldCache borrower (update (x.yieldCache borrower) v.voucher (some entry)) }
    return yieldBps

/-- `apply_tier_rewards_to_yield`. -/
def applyTierRewardsToYield (borrower : Address) (baseYieldBps : Int) : Contract Vouching Int := do
  let ctx ← ask
  match ctx.tierYieldBonusBps borrower with
  | none => return baseYieldBps
  | some bonus => i128 .arithmetic (baseYieldBps + bonus)

/-- The yield share of one voucher on a loan of `amount`. -/
def vouchYield (borrower : Address) (amount totalStake tierBonus : Int) (repayments defaults : Nat)
    (v : VouchRecord) : Contract Vouching Int := do
  let rate ← vouchYieldBps borrower v repayments defaults
  let effectiveRate ← i128 .arithmetic (rate + tierBonus)
  let stake ← weightedStake v
  let product ← i128 .arithmetic (amount * stake)
  let share ← divI128 .arithmetic product totalStake
  let scaled ← i128 .arithmetic (share * effectiveRate)
  return scaled.tdiv 10000

/-- The vouchers' shares of a loan's yield, and their sum. -/
structure YieldShares where
  entries : List YieldDistributionEntry
  total : Int

/-- The loop of `request_loan` over the vouches, adding the share of each to `acc`. -/
def yieldDistribution (borrower token : Address) (amount totalStake tierBonus : Int) (repayments defaults : Nat)
    (acc : YieldShares) : List VouchRecord → Contract Vouching YieldShares
  | [] => return acc
  | v :: vs =>
    if v.token = token then do
      let share ← vouchYield borrower amount totalStake tierBonus repayments defaults v
      let total ← i128 .arithmetic (acc.total + share)
      let acc := { entries := acc.entries ++ [⟨v.voucher, share⟩], total }
      yieldDistribution borrower token amount totalStake tierBonus repayments defaults acc vs
    else yieldDistribution borrower token amount totalStake tierBonus repayments defaults acc vs

/-- `DEFAULT_TIER_BONUS_BPS`. -/
def defaultTierBonusBps : List Int := [0, 50, 150, 300]

/-- `liquidity_tier_bonus_bps`: the configured bonus of the token's tier, or the default one. -/
def liquidityTierBonusBps (w : World) (token : Address) : Int :=
  let tier := w.tokenLiquidityTier token
  match w.config.liquidityTierYieldBonus[tier]? with
  | some bonus => bonus
  | none => defaultTierBonusBps[tier]?.getD 0

/-! ## Interest and milestones -/

/-- `checked_mul(y).unwrap_or(0)`. -/
def mulOrZero (x y : Int) : Int := if FitsI128 (x * y) then x * y else 0

def calculateDailyCompoundInterest (outstandingPrincipal : Int) (daysElapsed : Nat) : Int :=
  if outstandingPrincipal ≤ 0 ∨ daysElapsed = 0 then 0
  else mulOrZero (((mulOrZero outstandingPrincipal compoundRateBps).tdiv 10000).tdiv 365) daysElapsed

/-- Step 1 of `repay`: interest for the whole days since the last accrual. -/
def accrueInterest (now : Nat) (loan : LoanRecord) : LoanRecord :=
  let daysElapsed := (now - loan.lastInterestCalc) / secsPerDay
  if 0 < daysElapsed then
    let interest := calculateDailyCompoundInterest (max (loan.amount - loan.amountRepaid) 0) daysElapsed
    { loan with
      accruedInterest := if FitsI128 (loan.accruedInterest + interest) then loan.accruedInterest + interest else i128Max
      lastInterestCalc := loan.lastInterestCalc + daysElapsed * secsPerDay }
  else loan

/-- One repayment milestone: its threshold in per mille, its discount, its flag. -/
structure Milestone where
  permille : Nat
  discountBps : Int
  flag : Nat
deriving DecidableEq

/-- In the order `apply_milestone_bonus` tries them. -/
def milestones : List Milestone := [⟨750, 3000, 4⟩, ⟨500, 2000, 2⟩, ⟨250, 1000, 1⟩]

/-- A milestone reached for the first time discounts the accrued interest. -/
def applyMilestone (repaidPermille : Nat) (state : Int × Nat) (m : Milestone) : Int × Nat :=
  if m.permille ≤ repaidPermille ∧ state.2 &&& m.flag = 0 then
    (max (state.1 - (satI128 (state.1 * m.discountBps)).tdiv 10000) 0, state.2 ||| m.flag)
  else state

/-- `apply_milestone_bonus`: the accrued interest and the flags after a payment. -/
def applyMilestoneBonus (loan : LoanRecord) (amountRepaidAfterPayment totalObligation : Int) : Int × Nat :=
  if totalObligation ≤ 0 then (loan.accruedInterest, loan.milestoneBonusApplied)
  else
    let permille := (max ((satI128 (amountRepaidAfterPayment * 1000)).tdiv totalObligation) 0).toNat % 2 ^ 32
    milestones.foldl (applyMilestone permille) (loan.accruedInterest, loan.milestoneBonusApplied)

/-! ## Insurance -/

/-- `collect_insurance_fee`. The principal is cast to an unsigned integer. -/
def collectInsuranceFee (loanAmount : Int) : Contract Terms Int := do
  let ctx ← ask
  let bps := ctx.config.insuranceFundPremiumBps
  if bps = 0 then return 0
  else do
    let fee : Int := (min ((loanAmount % 2 ^ 128).toNat * bps) (2 ^ 128 - 1) / 10000 : Nat)
    alter fun t =>
      { t with insuranceFund := satI128 (t.insuranceFund + fee), insuranceFundLastContribution := ctx.now }
    return fee

/-! ## Covenants -/

def initializeLoanCovenants (loanId ltvRatioBps dtiRatioBps monitoringPeriodSecs : Nat) : Contract Terms Unit := do
  let ctx ← ask
  require (ltvRatioBps ≠ 0 ∧ ltvRatioBps ≤ 10000) (.error .invalidParameters)
  require (dtiRatioBps ≠ 0 ∧ dtiRatioBps ≤ 10000) (.error .invalidParameters)
  alter fun t =>
    { t with
      covenantConfig := update t.covenantConfig loanId (some ⟨loanId, monitoringPeriodSecs⟩)
      covenantStatus := update t.covenantStatus loanId (some ⟨loanId, 0, 0, ctx.now, false⟩)
      covenantBreachCount := update t.covenantBreachCount loanId 0 }

/-- `monitor_loan_covenants`. Within the monitoring period the stored status is
returned. After it, the loan is looked up as the active loan of its own id where
a borrower is expected; no entry is keyed that way, so no covenant is evaluated. -/
def monitorLoanCovenants (loanId : Nat) : Contract Terms LoanCovenantStatus := do
  let ctx ← ask
  let cfg ← orFail (← look (·.covenantConfig loanId)) (.error .loanNotFound)
  let status ← orFail (← look (·.covenantStatus loanId)) (.error .invalidStateTransition)
  if ctx.now - status.lastCheckTimestamp < cfg.monitoringPeriodSecs then return status
  else fail (.error .noActiveLoan)

end QuorumCredit
