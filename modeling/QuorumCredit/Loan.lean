import QuorumCredit.Terms
/-!
# Loans

`loan.rs`: requesting, repaying and refinancing a loan, and the two getters,
which mark an overdue loan as defaulted before they return it.
-/

open Host Function

namespace QuorumCredit

/-- One write to the loan book. -/
def onBook (f : LoanBook → LoanBook) : Contract LoanBook Unit := alter f

/-! ## Requesting a loan -/

/-- `amount` is at most `ratio / unit` of the stake. -/
def requireRatio {σ : Type} (amount totalStake : Int) (ratio : Nat) (unit : Int) : Contract σ Unit := do
  let product ← i128 .arithmetic (totalStake * ratio)
  require (amount ≤ product.tdiv unit) (.error .loanExceedsMaxRatio)

/-- A loan as every issuing path first stores it. -/
def newLoan (id : Nat) (borrower : Address) (amount totalYield : Int) (now deadline : Nat) (loanPurpose : String)
    (tokenAddress : Address) : LoanRecord :=
  { id, borrower, guarantor := none, coBorrowers := [], amount, amountRepaid := 0, totalYield, status := .active
    repaid := false, defaulted := false, createdAt := now, disbursementTimestamp := now
    repaymentTimestamp := none, deadline, loanPurpose, tokenAddress, riskScore := 0, rateType := .fixed
    indexReference := none, lastInterestCalc := now, accruedInterest := 0, milestoneBonusApplied := 0 }

/-- Makes `id` the borrower's active and latest loan. -/
def LoanBook.pointTo (k : LoanBook) (borrower : Address) (id : Nat) : LoanBook :=
  (k.setActiveLoan borrower (some id)).setLatestLoan borrower id

/-- Stores a loan under its id and points its borrower at it. -/
def LoanBook.issue (k : LoanBook) (loan : LoanRecord) : LoanBook :=
  (k.setLoan loan.id loan).pointTo loan.borrower loan.id

def setYieldDistribution (loanId : Nat) (entries : List YieldDistributionEntry) : Contract Terms Unit :=
  alter fun t => { t with yieldDistribution := update t.yieldDistribution loanId entries }

/-- The guards on who may request, up to the first look at the borrower's loans. -/
def admitBorrower (borrower : Address) : Contract Store Unit := do
  requireAuth borrower
  requireNotThawing
  checkRateLimit borrower
  checkPermission borrower (·.canRequestLoan)
  registerBorrowerIfNeeded borrower

/-- The stake behind a request, weighted by reputation, that the amount must not exceed. -/
def requireCollateral (borrower token : Address) (amount threshold : Int) : Contract Vouching Int := do
  let ctx ← ask
  let vouches ← look (·.vouchesOf borrower)
  let totalStake ← totalWeightedStake token 0 vouches
  require (threshold ≤ totalStake) (.panic .insufficientFunds)
  requireRatio amount totalStake ctx.config.maxLoanToCollateralRatio 10000
  requireRatio amount totalStake ctx.config.maxLoanToStakeRatio 100
  return totalStake

/-- The guards of a request. Returns the weighted stake behind it. -/
def admitLoan (borrower : Address) (amount threshold : Int) (token : Address) : Contract Store Int := do
  let ctx ← ask
  admitBorrower borrower
  let _ ← checkAllDefaultsForBorrower borrower
  let book ← look (·.book)
  require (book.hasActiveLoan borrower = false) (.error .activeLoanExists)
  requireAllowedToken token
  require (ctx.config.minLoanAmount ≤ amount) (.error .loanBelowMinAmount)
  requireCollateral borrower token amount threshold

/-- The vouchers' shares of the yield, fixed when the loan is made. -/
def lockYield (borrower token : Address) (amount totalStake : Int) (repayments defaults : Nat) :
    Contract Vouching YieldShares := do
  let ctx ← ask
  let tierAdjusted ← applyTierRewardsToYield borrower ctx.config.yieldBps
  let tierBonus ← i128 .arithmetic (tierAdjusted - ctx.config.yieldBps)
  let vouches ← look (·.vouchesOf borrower)
  yieldDistribution borrower token amount totalStake tierBonus repayments defaults ⟨[], 0⟩ vouches

/-- The book after `request_loan` stored the loan. -/
def LoanBook.openLoan (k : LoanBook) (loan : LoanRecord) : LoanBook :=
  ((k.setLoan loan.id loan).recordBorrowerLoanId loan.borrower loan.id).pointTo loan.borrower loan.id

/-- Stores the loan, pays it out less the insurance fee, and checks its covenants. -/
def disburseLoan (loan : LoanRecord) : Contract Store Unit := do
  onBook (·.openLoan loan)
  let fee ← collectInsuranceFee loan.amount
  pay loan.tokenAddress loan.borrower (satI128 (loan.amount - fee))
  onBook (·.incrementTvlCounters loan.amount)
  let _ ← monitorLoanCovenants loan.id

def requestLoan (borrower : Address) (amount threshold : Int) (loanPurpose : String) (token : Address) :
    Contract Store Unit := do
  let ctx ← ask
  let totalStake ← admitLoan borrower amount threshold token
  -- the first id is taken and not used
  let _ ← nextLoanId
  let book ← look (·.book)
  let shares ← lockYield borrower token amount totalStake (book.repaymentCount borrower) (book.defaultCount borrower)
  let deadline ← u64 .arithmetic (ctx.now + ctx.config.loanDuration)
  let loanId ← nextLoanId
  setYieldDistribution loanId shares.entries
  disburseLoan (newLoan loanId borrower amount shares.total ctx.now deadline loanPurpose token)

/-! ## Repaying -/

def saveAudit (borrower : Address) (record : SlashRecord) : Contract Slashing Unit :=
  alter fun x =>
    { x with
      slashRecord := update x.slashRecord record.slashId (some record)
      slashAudit := update x.slashAudit borrower (some record) }

/-- `apply_slash_recovery`: part of what a slash took, paid back to a borrower
who repays a defaulted loan. -/
def applySlashRecovery (borrower : Address) : Contract Store Unit := do
  let ctx ← ask
  let audit ← look (·.slashing.slashAudit borrower)
  match audit with
  | none => return ()
  | some record =>
    if ctx.config.recoveryPercentage = 0 ∨ record.reversed = true ∨ 0 < record.recoveryAmount then return ()
    else do
      let product ← i128 .arithmetic (record.totalSlashed * ctx.config.recoveryPercentage)
      let recoverable := product.tdiv bpsDenominator
      if recoverable ≤ 0 then return ()
      else do
        deductSlashBalance recoverable
        let book ← look (·.book)
        let loan ← orFail (book.getLatestLoanRecord borrower) (.error .noActiveLoan)
        requireAllowedToken loan.tokenAddress
        pay loan.tokenAddress borrower recoverable
        saveAudit borrower { record with recoveryAmount := recoverable }

/-- The loan `repay` works on: the active one, or else the latest if it defaulted. -/
def LoanBook.loanToRepay (k : LoanBook) (borrower : Address) : Option LoanRecord :=
  match k.getActiveLoanRecord borrower with
  | some loan => some loan
  | none =>
    match k.getLatestLoanRecord borrower with
    | some loan => if loan.status = .defaulted then some loan else none
    | none => none

/-- `amount + total_yield + accrued_interest`. -/
def totalOwed {σ : Type} (loan : LoanRecord) (overflow : Failure) : Contract σ Int := do
  let sum ← i128 overflow (loan.amount + loan.totalYield)
  i128 overflow (sum + loan.accruedInterest)

/-- A loan after a payment, and what was owed in total before it. -/
structure Payment where
  loan : LoanRecord
  owed : Int

/-- Steps 1 to 4 of `repay`: accrues, takes the payment and applies milestones. -/
def applyPayment (now : Nat) (loan : LoanRecord) (borrower : Address) (payment : Int) : Contract Ledger Payment := do
  let loan := accrueInterest now loan
  let owed ← totalOwed loan (.assertion "total_owed overflow")
  let outstanding := if FitsI128 (owed - loan.amountRepaid) then max (owed - loan.amountRepaid) 0 else 0
  require (payment ≤ outstanding) (.error .invalidAmount)
  collect loan.tokenAddress borrower payment
  let amountRepaid ← i128 (.assertion "amount_repaid overflow") (loan.amountRepaid + payment)
  let obligation := if FitsI128 (loan.amount + loan.totalYield) then loan.amount + loan.totalYield else loan.amount
  let bonus := applyMilestoneBonus loan amountRepaid obligation
  let loan := { loan with amountRepaid, accruedInterest := bonus.1, milestoneBonusApplied := bonus.2 }
  let _ ← totalOwed loan (.assertion "total_owed_final overflow")
  return { loan, owed }

def recordPayment (loan : LoanRecord) (payment : Int) : Contract Terms Unit := do
  let ctx ← ask
  let record : PaymentRecord := { amount := payment, timestamp := ctx.now, cumulativeRepaid := loan.amountRepaid }
  alter fun t =>
    { t with paymentHistory := update t.paymentHistory loan.id (t.paymentHistory loan.id ++ [record]) }

/-- The penalty on the principal that an early payment leaves open. -/
def prepaymentPenalty {σ : Type} (loan : LoanRecord) (owed : Int) (wasDefaulted : Bool) : Contract σ Int := do
  let ctx ← ask
  if wasDefaulted = false ∧ ctx.now < loan.deadline ∧ 0 < ctx.config.prepaymentPenaltyBps then do
    let product ← i128 (.error .arithmeticError) (loan.amountRepaid * loan.amount)
    let repaidPrincipal ← divI128 .arithmetic product owed
    let remaining ← i128 (.error .arithmeticError) (loan.amount - repaidPrincipal)
    let penalty ← i128 (.error .arithmeticError) (remaining * ctx.config.prepaymentPenaltyBps)
    return penalty.tdiv bpsDenominator
  else return 0

/-- `stats.successful_vouches += 1; stats.total_yield_earned += earned`. -/
def addYieldEarned (voucher : Address) (earned : Int) : Contract Vouching Unit := do
  let stats ← look (·.statsOf voucher)
  let total ← i128 .arithmetic (stats.totalYieldEarned + earned)
  alter (·.setStats voucher
    { stats with successfulVouches := stats.successfulVouches + 1, totalYieldEarned := total })

/-- One voucher's stake, yield, penalty share and tier bonus at repayment. -/
def payoutVoucher (token : Address) (dist : List YieldDistributionEntry) (penalty totalStake : Int)
    (v : VouchRecord) : Contract Vault Unit := do
  let ctx ← ask
  let yieldAmount := ((dist.find? fun e => e.voucher = v.voucher).map (·.yieldAmount)).getD 0
  let penaltyProduct ← i128 .arithmetic (if 0 < totalStake then penalty * v.stake else 0)
  let penaltyShare := if 0 < totalStake then penaltyProduct.tdiv totalStake else 0
  let tierProduct ← i128 .arithmetic (v.stake * liquidityTierBonusBps ctx.toWorld token)
  let tierExtra := tierProduct.tdiv bpsDenominator
  let payout ← i128 .arithmetic (v.stake + yieldAmount + penaltyShare + tierExtra)
  if 0 < payout then pay token v.voucher payout else pure ()
  addYieldEarned v.voucher (yieldAmount + tierExtra)

def payoutVouchers (token : Address) (dist : List YieldDistributionEntry) (penalty totalStake : Int) :
    List VouchRecord → Contract Vault Unit
  | [] => return ()
  | v :: vs =>
    if v.token = token then do
      payoutVoucher token dist penalty totalStake v
      payoutVouchers token dist penalty totalStake vs
    else payoutVouchers token dist penalty totalStake vs

/-- `apply_prepayment_bonus`: more the earlier the loan is repaid. -/
def applyPrepaymentBonus {σ : Type} (loan : LoanRecord) : Contract σ Int := do
  let ctx ← ask
  let duration := loan.deadline - loan.disbursementTimestamp
  if loan.deadline ≤ ctx.now ∨ ctx.prepaymentBonusBps = 0 ∨ duration = 0 then return 0
  else do
    let earlyRatioBps : Int := ((loan.deadline - ctx.now : Nat) * 10000 : Int).tdiv duration
    let scaled ← i128 .arithmetic (loan.amount * ctx.prepaymentBonusBps)
    let product ← i128 .arithmetic (scaled * earlyRatioBps)
    return max (product.tdiv (10000 * 10000)) 0

/-- The bonus is paid if the contract holds enough. -/
def payPrepaymentBonus (loan : LoanRecord) (borrower : Address) : Contract Ledger Unit := do
  let ctx ← ask
  let bonus ← applyPrepaymentBonus loan
  let held ← look (·.balance loan.tokenAddress ctx.contract)
  if 0 < bonus ∧ bonus ≤ held then pay loan.tokenAddress borrower bonus else return ()

/-- The reputation NFT contract, if one is set, returns from the call for the borrower. -/
abbrev World.NftReturns (w : World) (call : NftCall) (borrower : Address) : Prop :=
  w.reputationNft.all (w.nftReturns · call borrower) = true

/-- A trap of the NFT contract ends the call. -/
abbrev callReputationNft {σ : Type} (call : NftCall) (borrower : Address) : Contract σ Unit := do
  let ctx ← ask
  require (ctx.NftReturns call borrower) .host

/-- The vouchers' side of a full repayment: queued withdrawals first, then stake
and yield to the vouchers in the loan's token. -/
def settleVouches (loan : LoanRecord) (borrower : Address) (dist : List YieldDistributionEntry) (penalty : Int) :
    Contract Vault Unit := do
  processWithdrawalQueue borrower
  let vouches ← look (·.vouching.vouchesOf borrower)
  let totalStake ← sumI128 .arithmetic 0 ((vouches.filter fun v => v.token = loan.tokenAddress).map (·.stake))
  payoutVouchers loan.tokenAddress dist penalty totalStake vouches
  callReputationNft .mint borrower
  payPrepaymentBonus loan borrower
  alter fun x : Vault => { x with vouching := x.vouching.removeVouches borrower }

/-- A full repayment of a loan that had not defaulted. -/
def closeLoan (loan : LoanRecord) (borrower : Address) (penalty : Int) : Contract Store Unit := do
  let dist ← look (·.terms.yieldDistribution loan.id)
  settleVouches loan borrower dist penalty
  onBook fun k => ((k.addRepayment borrower).setActiveLoan borrower none).decrementTvlCounters loan.amount
  setYieldDistribution loan.id []

/-- Steps 5 and after: settles the loan if the payment completes it, and stores it. -/
def settlePayment (borrower : Address) (paid : Payment) (wasDefaulted : Bool) : Contract Store Unit := do
  let ctx ← ask
  let penalty ← prepaymentPenalty paid.loan paid.owed wasDefaulted
  if paid.owed ≤ paid.loan.amountRepaid then do
    if wasDefaulted = true then applySlashRecovery borrower else closeLoan paid.loan borrower penalty
    onBook (·.setLoan paid.loan.id { paid.loan with status := .repaid, repaymentTimestamp := some ctx.now })
  else
    onBook (·.setLoan paid.loan.id paid.loan)

/-- `loan::repay`. -/
def repayLoan (borrower : Address) (payment : Int) : Contract Store Unit := do
  let ctx ← ask
  requireAuth borrower
  requireNotThawing
  checkRateLimit borrower
  checkPermission borrower (·.canRepay)
  let book ← look (·.book)
  let loan ← orFail (book.loanToRepay borrower) (.error .noActiveLoan)
  require (0 < payment) (.panic .invalidAmount)
  let _ ← monitorLoanCovenants loan.id
  let paid ← applyPayment ctx.now loan borrower payment
  recordPayment paid.loan payment
  settlePayment borrower paid (decide (loan.status = .defaulted))

/-- The entry point: `loan::repay` under the reentrancy lock. -/
def repay (borrower : Address) (payment : Int) : Contract Store Unit := do
  acquireLock
  repayLoan borrower payment
  releaseLock

def repayPartial (borrower : Address) (payment : Int) (token : Address) : Contract Store Unit := do
  requireAuth borrower
  requireNotThawing
  checkRateLimit borrower
  checkPermission borrower (·.canRepay)
  let book ← look (·.book)
  let loan ← orFail (book.getActiveLoanRecord borrower) (.error .noActiveLoan)
  require (0 < payment) (.panic .invalidAmount)
  requireAllowedToken token
  collect token borrower payment
  let amountRepaid ← i128 (.error .arithmeticError) (loan.amountRepaid + payment)
  onBook (·.setLoan loan.id { loan with amountRepaid })

/-! ## Eligibility -/

/-- `is_eligible`, by the cached stake. -/
def isEligible (borrower : Address) (threshold : Int) (token : Address) : Contract Store Bool := do
  if threshold ≤ 0 then return false
  else do
    let book ← look (·.book)
    if book.hasActiveLoan borrower = true then return false
    else do
      let total ← getCachedWeightedStake borrower token
      return decide (threshold ≤ total)

/-! ## Risk scores -/

def setBorrowerRiskScore (admins : List Address) (borrower : Address) (riskScore : Nat) : Contract Store Unit := do
  requireAdminApproval admins
  require (riskScore ≤ 100) (.error .invalidAmount)
  let book ← look (·.book)
  let loan ← orFail (book.getActiveLoanRecord borrower) (.error .noActiveLoan)
  onBook (·.setLoan loan.id { loan with riskScore })

/-! ## Refinancing -/

/-- The new rate is strictly better, the loan has not expired, and the new
principal covers the outstanding balance and the protocol minimum. -/
def isRefinanceEligible (newRateBps oldRateBps : Int) (now deadline : Nat) (newAmount outstanding minLoanAmount : Int) :
    Bool :=
  newRateBps < oldRateBps && (now < deadline && (outstanding ≤ newAmount && minLoanAmount ≤ newAmount))

/-- The cap on refinances in a row and the wait between them. -/
def requireRefinanceAllowed (borrower : Address) : Contract Terms Unit := do
  let ctx ← ask
  let chainCount ← look (·.refinanceChainCount borrower)
  require (ctx.config.maxRefinancesPerLoanChain = 0 ∨ chainCount < ctx.config.maxRefinancesPerLoanChain)
    (.error .refinanceLimitExceeded)
  let last ← look (·.lastRefinancedAt borrower)
  require (ctx.config.refinanceCooldownSecs = 0 ∨ last = 0 ∨
    min (last + ctx.config.refinanceCooldownSecs) u64Max ≤ ctx.now) (.error .refinanceCooldownActive)

/-- `old_loan.total_yield * 10_000 / old_loan.amount`, or the protocol rate. -/
def refinancedRate {σ : Type} (loan : LoanRecord) : Contract σ Int := do
  let ctx ← ask
  if 0 < loan.amount then do
    let product ← i128 .arithmetic (loan.totalYield * 10000)
    return product.tdiv loan.amount
  else return ctx.config.yieldBps

/-- The stake behind a refinance is compared with the caller's own threshold. -/
def requireThreshold (borrower token : Address) (threshold : Int) : Contract Vouching Unit := do
  let vouches ← look (·.vouchesOf borrower)
  let totalStake ← totalWeightedStake token 0 vouches
  require (threshold ≤ totalStake) (.error .insufficientFunds)

def recordRefinance (old new : LoanRecord) (outstanding oldRateBps newRateBps : Int) : Contract Terms Unit := do
  let ctx ← ask
  let oldInterest := (satI128 (outstanding * oldRateBps)).tdiv bpsDenominator
  let newInterest := (satI128 (outstanding * newRateBps)).tdiv bpsDenominator
  let savings ← i128 .arithmetic (oldInterest - newInterest)
  let stats ← look (·.refinanceStats)
  let totalRefinances ← u32 .arithmetic (stats.totalRefinances + 1)
  let reduction ← i128 .arithmetic (oldRateBps - newRateBps)
  let record : RefinanceRecord :=
    { oldLoanId := old.id, newLoanId := new.id, borrower := new.borrower, oldAmount := old.amount
      newAmount := new.amount, oldRateBps, newRateBps, refinancedAt := ctx.now }
  alter fun t =>
    { t with
      refinanceRecord := update t.refinanceRecord new.id (some record)
      refinanceChainCount :=
        update t.refinanceChainCount new.borrower (min (t.refinanceChainCount new.borrower + 1) u32Max)
      lastRefinancedAt := update t.lastRefinancedAt new.borrower ctx.now
      refinanceStats :=
        { totalRefinances
          totalRateReductionBps := satI128 (stats.totalRateReductionBps + reduction)
          totalEstimatedSavings := satI128 (stats.totalEstimatedSavings + savings) } }

/-- The loan a refinance replaces `old` with. -/
def refinancedLoan (old : LoanRecord) (id : Nat) (amount totalYield : Int) (now deadline : Nat) (token : Address)
    (borrower : Address) : LoanRecord :=
  { newLoan id borrower amount totalYield now deadline old.loanPurpose token with
    guarantor := old.guarantor, coBorrowers := old.coBorrowers, riskScore := old.riskScore
    rateType := old.rateType, indexReference := old.indexReference }

/-- What a refinance replaces, and at which rates. -/
structure RefinanceTerms where
  old : LoanRecord
  owed : Int
  outstanding : Int
  oldRateBps : Int
  newYieldBps : Int

/-- What is open on the loan, which must not have expired. -/
def outstandingTerms (old : LoanRecord) (newAmount : Int) : Contract Terms RefinanceTerms := do
  let ctx ← ask
  require (ctx.now < old.deadline) (.error .loanPastDeadline)
  let owed ← i128 (.error .arithmeticError) (old.amount + old.totalYield)
  let outstanding ← i128 (.error .arithmeticError) (owed - old.amountRepaid)
  require (0 < outstanding) (.error .refinanceNoOutstanding)
  require (outstanding ≤ newAmount) (.error .invalidAmount)
  require (ctx.config.minLoanAmount ≤ newAmount) (.error .loanBelowMinAmount)
  return { old, owed, outstanding, oldRateBps := 0, newYieldBps := 0 }

/-- The guards of a refinance that look at the vouches and the rates. -/
def requireEligible (borrower token : Address) (newAmount newThreshold : Int) (terms : RefinanceTerms) :
    Contract Vouching RefinanceTerms := do
  let ctx ← ask
  requireAllowedToken token
  requireThreshold borrower token newThreshold
  let oldRateBps ← refinancedRate terms.old
  let newYieldBps ← applyTierRewardsToYield borrower ctx.config.yieldBps
  require (isRefinanceEligible newYieldBps oldRateBps ctx.now terms.old.deadline newAmount terms.outstanding
    ctx.config.minLoanAmount = true) (.error .refinanceNotEligible)
  return { terms with oldRateBps, newYieldBps }

/-- Closes the old loan and opens the new one in its place. -/
def replaceLoan (borrower token : Address) (newAmount : Int) (terms : RefinanceTerms) :
    Contract LoanBook LoanRecord := do
  let ctx ← ask
  onBook fun k =>
    (k.setLoan terms.old.id
      { terms.old with
        amountRepaid := terms.owed, status := .repaid, repaymentTimestamp := some ctx.now }).setActiveLoan borrower none
  let newId ← nextLoanId
  let product ← i128 .arithmetic (newAmount * terms.newYieldBps)
  let deadline ← u64 .arithmetic (ctx.now + ctx.config.loanDuration)
  let loan := refinancedLoan terms.old newId newAmount (product.tdiv 10000) ctx.now deadline token borrower
  onBook (·.issue loan)
  return loan

/-- What the new principal exceeds the outstanding balance by goes to the borrower. -/
def disburseNet (borrower token : Address) (newAmount outstanding : Int) : Contract Ledger Unit := do
  let net ← i128 (.error .arithmeticError) (newAmount - outstanding)
  if 0 < net then pay token borrower net else return ()

def refinanceLoan (borrower : Address) (newAmount newThreshold : Int) (newToken : Address) :
    Contract Store Unit := do
  requireAuth borrower
  requireNotThawing
  checkRateLimit borrower
  let book ← look (·.book)
  let old ← orFail (book.getActiveLoanRecord borrower) (.error .noActiveLoan)
  let terms ← outstandingTerms old newAmount
  requireRefinanceAllowed borrower
  let terms ← requireEligible borrower newToken newAmount newThreshold terms
  let loan ← replaceLoan borrower newToken newAmount terms
  disburseNet borrower newToken newAmount terms.outstanding
  recordRefinance old loan terms.outstanding terms.oldRateBps terms.newYieldBps

/-! ## Getters -/

/-- `get_loan`: the borrower's active loan, marked as defaulted first if it is overdue. -/
def getLoan (borrower : Address) : Contract LoanBook (Option LoanRecord) := do
  let book ← look id
  match book.getActiveLoanRecord borrower with
  | some loan => do
    let _ ← attempt Failure.returned (checkAndMarkDefault loan.id)
    let book ← look id
    match book.getActiveLoanRecord borrower with
    | some refreshed => return some refreshed
    | none => return book.getLatestLoanRecord borrower
  | none => return book.getLatestLoanRecord borrower

/-- `get_loan_by_id`: the loan, marked as defaulted first if it is overdue. -/
def getLoanById (loanId : Nat) : Contract LoanBook (Option LoanRecord) := do
  let _ ← attempt Failure.returned (checkAndMarkDefault loanId)
  look (·.loan loanId)

end QuorumCredit
