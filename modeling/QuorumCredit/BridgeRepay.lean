import QuorumCredit.BridgeAttestation
/-!
# Repayments over the bridge

`bridge.rs`: a loan repaid in another token at the configured price, and a repayment
made on another chain. Both count the payment and settle the loan on their own, next
to `repay`.
-/

open Host Function

namespace QuorumCredit

/-- The prices and the balances of bridged tokens. -/
structure Swaps where
  bridgeTokenPrice : Address → Option Int
  bridgedTokenBalance : Address → Option Int

def Swaps.empty : Swaps := { bridgeTokenPrice := fun _ => none, bridgedTokenBalance := fun _ => none }

/-- These entries, beside the attestations and the rest of the contract. -/
structure BridgeStore where
  core : Store
  bridges : Bridges
  swaps : Swaps

instance : Part BridgeStore Store where
  get := BridgeStore.core
  set x s := { s with core := x }
instance : Part BridgeStore Bridges where
  get := BridgeStore.bridges
  set b s := { s with bridges := b }
instance : Part BridgeStore Swaps where
  get := BridgeStore.swaps
  set x s := { s with swaps := x }

/-- The loan a payment goes to: the active one, unless it is settled, or the latest if it defaulted. -/
def LoanBook.bridgeLoan (k : LoanBook) (borrower : Address) : Option LoanRecord :=
  match k.activeLoan borrower with
  | some id => (k.loan id).filter fun r => r.status = .active ∨ r.status = .defaulted
  | none => (k.getLatestLoanRecord borrower).filter fun r => r.status = .defaulted

/-! ## In another token -/

/-- The price of a token without one is par. -/
def getBridgeTokenPrice (token : Address) : Contract Swaps Int := do
  return (← look (·.bridgeTokenPrice token)).getD 10000

def convertPayment (paymentToken loanToken : Address) (paymentAmount : Int) : Contract Swaps Int := do
  let paymentTokenPrice ← getBridgeTokenPrice paymentToken
  let loanTokenPrice ← getBridgeTokenPrice loanToken
  require (loanTokenPrice ≠ 0) (.error .insufficientFunds)
  let product ← i128 (.error .arithmeticError) (paymentAmount * paymentTokenPrice)
  let converted ← divI128 .arithmetic product loanTokenPrice
  require (0 < converted) (.error .insufficientFunds)
  return converted

/-- Adds to the balance, unless that overflows. -/
def addBridged (token : Address) (amount : Int) : Contract Swaps Unit :=
  alter fun x =>
    let prev := (x.bridgedTokenBalance token).getD 0
    { x with
      bridgedTokenBalance := update x.bridgedTokenBalance token
        (some (if FitsI128 (prev + amount) then prev + amount else prev)) }

/-- One voucher's stake, yield and tier bonus. -/
def payoutConverted (token : Address) (dist : List YieldDistributionEntry) (totalStake : Int) (v : VouchRecord) :
    Contract Vault Unit := do
  let ctx ← ask
  let yieldAmount := ((dist.find? fun e => e.voucher = v.voucher).map (·.yieldAmount)).getD 0
  let tierProduct ← i128 .arithmetic (if 0 < totalStake then v.stake * liquidityTierBonusBps ctx.toWorld token else 0)
  let tierExtra := tierProduct.tdiv bpsDenominator
  let payout ← i128 .arithmetic (v.stake + yieldAmount + tierExtra)
  if 0 < payout then pay token v.voucher payout else pure ()
  addYieldEarned v.voucher (yieldAmount + tierExtra)

def payoutsConverted (token : Address) (dist : List YieldDistributionEntry) (totalStake : Int) :
    List VouchRecord → Contract Vault Unit
  | [] => return ()
  | v :: vs =>
    if v.token = token then do
      payoutConverted token dist totalStake v
      payoutsConverted token dist totalStake vs
    else payoutsConverted token dist totalStake vs

/-- The vouchers' side of it: neither the queue of withdrawals nor a penalty is looked at. -/
def settleConverted (loan : LoanRecord) (borrower : Address) (dist : List YieldDistributionEntry) :
    Contract Vault Unit := do
  let vouches ← look (·.vouching.vouchesOf borrower)
  let totalStake ← sumI128 .arithmetic 0 ((vouches.filter fun v => v.token = loan.tokenAddress).map (·.stake))
  payoutsConverted loan.tokenAddress dist totalStake vouches
  alter fun x : Vault => { x with vouching := x.vouching.removeVouches borrower }

/-- Counts a payment that the contract already holds, and settles the loan if it completes it. -/
def applyConvertedRepayment (borrower : Address) (loan : LoanRecord) (convertedPayment : Int) :
    Contract Store Unit := do
  let ctx ← ask
  let amountRepaid ← i128 (.error .arithmeticError) (loan.amountRepaid + convertedPayment)
  let totalOwed ← i128 (.error .arithmeticError) (loan.amount + loan.totalYield)
  if totalOwed ≤ amountRepaid then do
    let dist ← look (·.terms.yieldDistribution loan.id)
    settleConverted loan borrower dist
    onBook fun k => (k.addRepayment borrower).setActiveLoan borrower none
    setYieldDistribution loan.id []
    onBook (·.setLoan loan.id
      { loan with amountRepaid, status := .repaid, repaid := true, repaymentTimestamp := some ctx.now })
  else onBook (·.setLoan loan.id { loan with amountRepaid })

/-- `total_owed.checked_sub(amount_repaid).unwrap_or(0).max(0)`. -/
def outstandingOf (totalOwed amountRepaid : Int) : Int :=
  if FitsI128 (totalOwed - amountRepaid) then max (totalOwed - amountRepaid) 0 else 0

/-- The whole payment is taken, and what is open of it counted. -/
def swapPayment (borrower : Address) (loan : LoanRecord) (paymentToken : Address) (paymentAmount : Int) :
    Contract BridgeStore Unit := do
  let convertedAmount ← convertPayment paymentToken loan.tokenAddress paymentAmount
  let totalOwed ← i128 (.error .arithmeticError) (loan.amount + loan.totalYield)
  let effectivePayment := min convertedAmount (outstandingOf totalOwed loan.amountRepaid)
  (collect paymentToken borrower paymentAmount : Contract Store _)
  addBridged paymentToken paymentAmount
  applyConvertedRepayment borrower loan effectivePayment

def repayWithSwapInner (borrower paymentToken : Address) (paymentAmount : Int) : Contract BridgeStore Unit := do
  require (0 < paymentAmount) (.error .invalidAmount)
  requireAllowedToken paymentToken
  let book ← look (·.core.book)
  let loan ← orFail (book.bridgeLoan borrower) (.error .noActiveLoan)
  if paymentToken = loan.tokenAddress then (repayLoan borrower paymentAmount : Contract Store _)
  else swapPayment borrower loan paymentToken paymentAmount

/-- The guards of a repayment over the bridge. -/
def enterBridge (borrower : Address) : Contract Store Unit := do
  requireAuth borrower
  requireNotPaused
  acquireLock

def repayWithSwap (borrower paymentToken : Address) (paymentAmount : Int) : Contract BridgeStore Unit := do
  (enterBridge borrower : Contract Store _)
  repayWithSwapInner borrower paymentToken paymentAmount
  (releaseLock : Contract Store _)

/-! ## On another chain -/

/-- Takes an attested payment and counts it; a loan it completes is marked and nothing else. -/
def applyAttestedRepayment (borrower : Address) (loan : LoanRecord) (paymentAmount : Int) : Contract Store Unit := do
  (collect loan.tokenAddress borrower paymentAmount : Contract Vault _)
  let ctx ← ask
  let amountRepaid ← i128 (.error .arithmeticError) (loan.amountRepaid + paymentAmount)
  let totalOwed ← i128 (.error .arithmeticError) (loan.amount + loan.totalYield)
  onBook (·.setLoan loan.id
    { loan with
      amountRepaid, repaymentTimestamp := some ctx.now
      status := if totalOwed ≤ amountRepaid then .repaid else loan.status })

section

variable (host : BridgeHost)

def repayCrossChainAtomicInner (originChain loanId : Nat) (borrower : Address) (paymentAmount : Int)
    (attestation : BridgeAttestation) : Contract BridgeStore Unit := do
  let book ← look (·.core.book)
  let loan ← orFail (book.bridgeLoan borrower) (.error .noActiveLoan)
  require (0 < paymentAmount) (.error .invalidAmount)
  validateBridgeAttestation host
    { originChain, loanId, borrower, amount := paymentAmount, status := .repaid, reputationScore := 0 } attestation
  (applyAttestedRepayment borrower loan paymentAmount : Contract Store _)

def repayCrossChainAtomic (originChain loanId : Nat) (borrower : Address) (paymentAmount : Int)
    (attestation : BridgeAttestation) : Contract BridgeStore Unit := do
  (enterBridge borrower : Contract Store _)
  repayCrossChainAtomicInner host originChain loanId borrower paymentAmount attestation
  (releaseLock : Contract Store _)

end

end QuorumCredit
