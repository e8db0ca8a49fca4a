import QuorumCredit.Governance
/-!
# Slashing by administration, expiry and loan pools

The entry points of `lib.rs` that settle or issue loans on their own: `slash`,
`auto_slash`, `claim_expired_loan` and `create_loan_pool`.
-/

open Host Function

namespace QuorumCredit

/-- `v.stake * cfg.slash_bps / 10_000`. -/
def slashShare {σ : Type} (v : VouchRecord) : Contract σ Int := do
  let ctx ← ask
  let product ← i128 .arithmetic (v.stake * ctx.config.slashBps)
  return product.tdiv 10000

def totalSlashShare (acc : Int) : List VouchRecord → Contract Ledger Int
  | [] => return acc
  | v :: vs => do
    let share ← slashShare v
    let acc ← i128 .arithmetic (acc + share)
    totalSlashShare acc vs

/-- Pays back, in the protocol's token, what the slash leaves of each stake. -/
def returnRemainders : List VouchRecord → Contract Ledger Unit
  | [] => return ()
  | v :: vs => do
    let ctx ← ask
    let share ← slashShare v
    let returned ← i128 .arithmetic (v.stake - share)
    if 0 < returned then pay ctx.config.token v.voucher returned else pure ()
    returnRemainders vs

/-- Every voucher's slashed share is kept and the rest returned; the records go. Returns the total kept. -/
def slashAll (borrower : Address) : Contract Vault Int := do
  let vouches ← look (·.vouching.vouchesOf borrower)
  let total ← totalSlashShare 0 vouches
  returnRemainders vouches
  alter fun x : Vault => { x with vouching := x.vouching.removeVouches borrower }
  return total

/-- The loan `slash` and `claim_expired_loan` may settle, by the two flags on the record. -/
def requireUnsettled (book : LoanBook) (borrower : Address) : Contract Store LoanRecord := do
  let loan ← orFail (book.getActiveLoanRecord borrower) (.error .noActiveLoan)
  require (loan.repaid = false ∧ loan.defaulted = false) (.error .noActiveLoan)
  return loan

/-- The book after `slash`: the flag is set, the status is not. -/
def LoanBook.settleSlashed (k : LoanBook) (borrower : Address) (loan : LoanRecord) : LoanBook :=
  (((((k.setLoan loan.id { loan with defaulted := true }).setActiveLoan borrower none).addDefault
    borrower).addDefault borrower).incrementTotalDefaultCount).decrementTvlCounters loan.amount

def slash (adminSigners : List Address) (borrower : Address) : Contract Store Unit := do
  requireAdminApproval adminSigners
  requireNotPaused
  let book ← look (·.book)
  let loan ← requireUnsettled book borrower
  let total ← slashAll borrower
  addSlashBalance total
  onBook (·.settleSlashed borrower loan)
  callReputationNft .burn borrower
  let book ← look (·.book)
  checkCircuitBreaker book.totalDefaultCount book.totalLoanCount

def saveLoanAtBorrower (borrower : Address) (loan : LoanRecord) : Contract Slashing Unit :=
  alter fun x => { x with loanAtBorrower := update x.loanAtBorrower borrower (some loan) }

def autoSlash (borrower : Address) : Contract Store Unit := do
  let ctx ← ask
  let book ← look (·.book)
  let loan ← orFail (book.getActiveLoanRecord borrower) (.error .noActiveLoan)
  require (loan.repaid = false) (.error .alreadyRepaid)
  require (loan.defaulted = false) (.error .noActiveLoan)
  require (min (loan.deadline + ctx.config.gracePeriod) u64Max < ctx.now) (.error .gracePeriodNotPassed)
  -- the record goes under the borrower's address, not under the loan's id
  saveLoanAtBorrower borrower { loan with defaulted := true }
  let total ← slashAll borrower
  addSlashBalance total
  callReputationNft .burn borrower

/-- Pays every record's full stake back, in the protocol's token. -/
def returnStakes : List VouchRecord → Contract Ledger Unit
  | [] => return ()
  | v :: vs => do
    let ctx ← ask
    pay ctx.config.token v.voucher v.stake
    returnStakes vs

def returnAll (borrower : Address) : Contract Vault Unit := do
  let vouches ← look (·.vouching.vouchesOf borrower)
  returnStakes vouches
  alter fun x : Vault => { x with vouching := x.vouching.removeVouches borrower }

/-- The book after `claim_expired_loan`: the flag is set, the status is not. -/
def LoanBook.settleExpired (k : LoanBook) (borrower : Address) (loan : LoanRecord) : LoanBook :=
  ((k.setLoan loan.id { loan with defaulted := true }).addDefault borrower).setActiveLoan borrower none

def claimExpiredLoan (borrower : Address) : Contract Store Unit := do
  let ctx ← ask
  requireAuth borrower
  let book ← look (·.book)
  let loan ← requireUnsettled book borrower
  require (loan.deadline ≤ ctx.now) (.error .loanNotExpired)
  returnAll borrower
  onBook (·.settleExpired borrower loan)

/-! ## Loan pools -/

/-- One entry of the pool: every stake behind the borrower counts, in whatever token. -/
def checkPoolEntry (borrower : Address) (amount : Int) : Contract Store Unit := do
  let ctx ← ask
  require (ctx.config.minLoanAmount ≤ amount) (.assertion "pool: amount below minimum loan threshold")
  let book ← look (·.book)
  require (book.hasActiveLoan borrower = false) (.error .poolBorrowerActiveLoan)
  let vouches ← look (·.vault.vouching.vouchesOf borrower)
  let totalStake ← sumI128 .arithmetic 0 (vouches.map (·.stake))
  let product ← i128 .arithmetic (totalStake * ctx.config.maxLoanToStakeRatio)
  require (amount ≤ product.tdiv 100) (.assertion "pool: loan amount exceeds maximum collateral ratio for borrower")

def checkPool (total : Int) : List (Address × Int) → Contract Store Int
  | [] => return total
  | (borrower, amount) :: rest => do
    checkPoolEntry borrower amount
    let total ← i128 (.error .arithmeticOverflow) (total + amount)
    checkPool total rest

def issuePoolLoan (borrower : Address) (amount : Int) (deadline : Nat) : Contract Store Unit := do
  let ctx ← ask
  let loanId ← nextLoanId
  let product ← i128 .arithmetic (amount * ctx.config.yieldBps)
  onBook (·.issue (newLoan loanId borrower amount (product.tdiv 10000) ctx.now deadline "pool" ctx.config.token))
  pay ctx.config.token borrower amount

def issuePool (deadline : Nat) : List (Address × Int) → Contract Store Unit
  | [] => return ()
  | (borrower, amount) :: rest => do
    issuePoolLoan borrower amount deadline
    issuePool deadline rest

def recordPool (borrowers : List Address) (amounts : List Int) (total : Int) : Contract Terms Nat := do
  let ctx ← ask
  let counter ← look (·.loanPoolCounter)
  require (counter < u64Max) (.error .arithmeticOverflow)
  let record : LoanPoolRecord :=
    { poolId := counter + 1, borrowers, amounts, createdAt := ctx.now, totalDisbursed := total }
  alter fun t =>
    { t with loanPoolCounter := counter + 1, loanPool := update t.loanPool (counter + 1) (some record) }
  return counter + 1

def createLoanPool (adminSigners borrowers : List Address) (amounts : List Int) : Contract Store Nat := do
  let ctx ← ask
  requireAdminApproval adminSigners
  require (borrowers.length = amounts.length) (.error .poolLengthMismatch)
  require (borrowers ≠ []) (.error .poolEmpty)
  let deadline ← u64 .arithmetic (ctx.now + ctx.config.loanDuration)
  let total ← checkPool 0 (borrowers.zip amounts)
  let held ← look (·.vault.bank.balance ctx.config.token ctx.contract)
  require (total ≤ held) (.error .poolInsufficientFunds)
  issuePool deadline (borrowers.zip amounts)
  recordPool borrowers amounts total

end QuorumCredit
