import QuorumCredit.Types
import Mathlib.Tactic.Simps.Basic
/-!
# Guards, pointers and counters

`helpers.rs`, `circuit_breaker.rs` and the loan index of
`lazy_default_detection.rs`: what every entry point calls before it does its own
work. Functions that only read the loan book are plain functions of it.
-/

open Host Function

namespace QuorumCredit

variable {σ : Type}

/-- `who.require_auth()`. The contract itself never signs a call. -/
def requireAuth (who : Address) : Contract σ Unit := do
  let ctx ← ask
  require (who ∈ ctx.signers ∧ who ≠ ctx.contract) (.unauthorized who)

/-! ## Lock and pause -/

def acquireLock : Contract Access Unit := do
  let locked ← look (·.locked)
  require (locked = false) (.error .reentrancy)
  alter fun a => { a with locked := true }

def releaseLock : Contract Access Unit :=
  alter fun a => { a with locked := false }

/-- The pause mode, ending a thaw whose window is over. -/
def getPauseMode : Contract Access PauseMode := do
  let ctx ← ask
  let a ← look id
  match a.pauseMode, a.thawState with
  | .thawing, some thaw => do
    let thawEnd ← u64 .arithmetic (thaw.thawStartTimestamp + thaw.thawDuration)
    if thawEnd ≤ ctx.now then do
      alter fun a => { a with pauseMode := .none, paused := false, thawState := none }
      return .none
    else return .thawing
  | mode, _ => return mode

def requireNotPaused : Contract Access Unit := do
  let ctx ← ask
  require (ctx.config.emergencyPauseEnabled = false) (.error .contractPaused)
  let mode ← getPauseMode
  require (mode ≠ .paused) (.error .contractPaused)
  require (mode ≠ .thawing) (.error .contractThawing)

def requireReadsAllowed : Contract Access Unit := do
  let ctx ← ask
  require (ctx.config.emergencyPauseEnabled = false) (.error .contractPaused)
  let mode ← getPauseMode
  require (mode ≠ .paused) (.error .contractPaused)

def requireNotThawing : Contract Access Unit := requireNotPaused

def requirePositiveAmount (amount : Int) : Contract σ Unit :=
  require (0 < amount) (.error .invalidAmount)

/-! ## Administration, permissions, rate limits -/

def requireSigners : List Address → Contract σ Unit
  | [] => return ()
  | signer :: rest => do
    let ctx ← ask
    require (signer ∈ ctx.config.admins) (.assertion "signer is not a registered admin")
    require (ctx.revokedAdmin signer = false) (.assertion "signer has been emergency-revoked")
    requireAuth signer
    requireSigners rest

def requireAdminApproval (adminSigners : List Address) : Contract σ Unit := do
  let ctx ← ask
  require (ctx.config.adminThreshold ≤ adminSigners.length) (.assertion "insufficient admin approvals")
  requireSigners adminSigners

def checkRateLimit (account : Address) : Contract Access Unit := do
  let ctx ← ask
  let cfg := ctx.config.rateLimitConfig
  if cfg.enabled = false then return ()
  else do
    let (lastWindowStart, count) ← look (·.rateLimit account)
    let windowEnd ← u64 .arithmetic (lastWindowStart + cfg.windowSecs)
    if ctx.now < windowEnd then do
      require (count < cfg.maxCalls) (.error .rateLimitExceeded)
      alter fun a => { a with rateLimit := update a.rateLimit account (lastWindowStart, count + 1) }
    else
      alter fun a => { a with rateLimit := update a.rateLimit account (ctx.now, 1) }

def checkPermission (account : Address) (permissionFn : RolePermissions → Bool) : Contract σ Unit := do
  let ctx ← ask
  if account ∈ ctx.config.admins then return ()
  else
    match ctx.rolePermissions account with
    | some p => require (permissionFn p = true) (.error .permissionDenied)
    | none => return ()

def requireAllowedToken (token : Address) : Contract σ Unit := do
  let ctx ← ask
  require (token = ctx.config.token ∨ token ∈ ctx.config.allowedTokens) (.error .invalidToken)

def registerBorrowerIfNeeded (borrower : Address) : Contract Access Unit :=
  alter fun a =>
    if borrower ∈ a.borrowerList then a else { a with borrowerList := a.borrowerList ++ [borrower] }

/-! ## Token transfers -/

/-- A transfer out of the contract. -/
def pay (token dst : Address) (amount : Int) : Contract Ledger Unit := do
  let ctx ← ask
  Bank.transfer .token token ctx.contract dst amount

/-- A transfer into the contract. -/
def collect (token src : Address) (amount : Int) : Contract Ledger Unit := do
  let ctx ← ask
  Bank.transfer .token token src ctx.contract amount

/-! ## Loan records and pointers -/

namespace LoanBook

/-- `get_active_loan_record`; `none` is its `NoActiveLoan`. -/
def getActiveLoanRecord (k : LoanBook) (borrower : Address) : Option LoanRecord :=
  (k.activeLoan borrower).bind k.loan

def hasActiveLoan (k : LoanBook) (borrower : Address) : Bool :=
  match k.getActiveLoanRecord borrower with
  | some loan => loan.status = .active
  | none => false

def getLatestLoanRecord (k : LoanBook) (borrower : Address) : Option LoanRecord :=
  (k.latestLoan borrower).bind k.loan

@[simps -fullyApplied]
def setLoan (k : LoanBook) (id : Nat) (loan : LoanRecord) : LoanBook :=
  { k with loan := update k.loan id (some loan) }

@[simps -fullyApplied]
def setActiveLoan (k : LoanBook) (borrower : Address) (id : Option Nat) : LoanBook :=
  { k with activeLoan := update k.activeLoan borrower id }

@[simps -fullyApplied]
def setLatestLoan (k : LoanBook) (borrower : Address) (id : Nat) : LoanBook :=
  { k with latestLoan := update k.latestLoan borrower (some id) }

@[simps -fullyApplied]
def addDefault (k : LoanBook) (borrower : Address) : LoanBook :=
  { k with defaultCount := update k.defaultCount borrower (k.defaultCount borrower + 1) }

@[simps -fullyApplied]
def addRepayment (k : LoanBook) (borrower : Address) : LoanBook :=
  { k with repaymentCount := update k.repaymentCount borrower (k.repaymentCount borrower + 1) }

@[simps -fullyApplied]
def incrementTotalDefaultCount (k : LoanBook) : LoanBook :=
  { k with totalDefaultCount := k.totalDefaultCount + 1 }

/-- `increment_tvl_counters`: a loan is issued. -/
@[simps -fullyApplied]
def incrementTvlCounters (k : LoanBook) (amount : Int) : LoanBook :=
  { k with totalActiveLoans := k.totalActiveLoans + 1, totalValueLocked := k.totalValueLocked + amount }

/-- `decrement_tvl_counters`: a loan is closed. Neither counter goes below zero. -/
@[simps -fullyApplied]
def decrementTvlCounters (k : LoanBook) (amount : Int) : LoanBook :=
  { k with
    totalActiveLoans := k.totalActiveLoans - 1
    totalValueLocked := max (k.totalValueLocked - amount) 0 }

def recordBorrowerLoanId (k : LoanBook) (borrower : Address) (id : Nat) : LoanBook :=
  if id ∈ k.borrowerLoanIds borrower then k
  else { k with borrowerLoanIds := update k.borrowerLoanIds borrower (k.borrowerLoanIds borrower ++ [id]) }

end LoanBook

def nextLoanId : Contract LoanBook Nat := do
  let counter ← look (·.loanCounter)
  require (counter < u64Max) (.error .counterOverflow)
  alter fun k => { k with loanCounter := counter + 1 }
  return counter + 1

/-! ## Lazy default detection -/

/-- `is_loan_defaulted`: an active loan past its deadline without full repayment. -/
def isLoanDefaulted (now : Nat) (loan : LoanRecord) : Bool :=
  loan.status = .active && (loan.deadline < now && loan.amountRepaid < loan.amount)

def checkAndMarkDefault (id : Nat) : Contract LoanBook Bool := do
  let ctx ← ask
  let loan ← orFail (← look (·.loan id)) (.error .noActiveLoan)
  if isLoanDefaulted ctx.now loan = false then return false
  else if loan.status = .defaulted then return false
  else do
    alter (·.setLoan id { loan with status := .defaulted })
    alter (·.addDefault loan.borrower)
    alter (·.incrementTotalDefaultCount)
    return true

/-- The loop of `check_all_defaults_for_borrower` over the recorded ids. -/
def checkLoans (count : Nat) : List Nat → Contract LoanBook Nat
  | [] => return count
  | id :: ids => do
    match ← attempt Failure.returned (checkAndMarkDefault id) with
    | .ok true => checkLoans (count + 1) ids
    | .ok false => checkLoans count ids
    -- a missing id in the index must not abort the check
    | .error .noActiveLoan => checkLoans count ids
    | .error e => fail (.error e)

def checkAllDefaultsForBorrower (borrower : Address) : Contract LoanBook Nat := do
  let ids ← look (·.borrowerLoanIds borrower)
  checkLoans 0 ids

/-! ## Slash treasury -/

def addSlashBalance (amount : Int) : Contract Slashing Unit := do
  let current ← look (·.slashTreasury)
  let total ← i128 .arithmetic (current + amount)
  alter fun x => { x with slashTreasury := total }

def deductSlashBalance (amount : Int) : Contract Slashing Unit := do
  let current ← look (·.slashTreasury)
  require (amount ≤ current) (.error .poolInsufficientFunds)
  let rest ← i128 .arithmetic (current - amount)
  alter fun x => { x with slashTreasury := rest }

/-! ## Circuit breaker -/

def circuitBreakerHistoryLimit : Nat := 32

def calculateDefaultRate (defaultCount totalLoanCount : Nat) : Nat :=
  if totalLoanCount = 0 then 0 else min (defaultCount * 10000 / totalLoanCount % 2 ^ 32) 10000

def shouldTriggerCircuitBreaker (cfg : Config) (defaultCount totalLoanCount : Nat) : Bool :=
  cfg.defaultRateThreshold ≠ 0 ∧ totalLoanCount ≠ 0 ∧
    cfg.defaultRateThreshold ≤ calculateDefaultRate defaultCount totalLoanCount

def tryTriggerCircuitBreaker (defaultCount totalLoanCount : Nat) : Contract Access Bool := do
  let ctx ← ask
  if shouldTriggerCircuitBreaker ctx.config defaultCount totalLoanCount = false then return false
  else do
    let lastTriggered ← look (·.circuitBreakerLastTriggered)
    if ctx.now < min (lastTriggered + ctx.circuitBreakerCooldownSecs) u64Max then return false
    else do
      let entry : CircuitBreakerTrigger :=
        { timestamp := ctx.now, defaultCount, totalLoanCount
          rateBps := calculateDefaultRate defaultCount totalLoanCount }
      alter fun a =>
        { a with
          circuitBreakerLastTriggered := ctx.now
          circuitBreakerHistory :=
            a.circuitBreakerHistory.drop (a.circuitBreakerHistory.length + 1 - circuitBreakerHistoryLimit) ++ [entry]
          circuitBreakerAcknowledged := false
          paused := true
          pauseMode := .paused
          thawState := some ⟨ctx.now, ctx.thawDurationSecs, 0⟩ }
      return true

/-- `let _ = try_trigger_circuit_breaker(..)`. -/
def checkCircuitBreaker (defaultCount totalLoanCount : Nat) : Contract Access Unit := do
  let _ ← attempt Failure.returned (tryTriggerCircuitBreaker defaultCount totalLoanCount)

/-- `get_total_loan_count`. -/
def LoanBook.totalLoanCount (k : LoanBook) : Nat := min k.loanCounter (2 ^ 32 - 1)

end QuorumCredit
