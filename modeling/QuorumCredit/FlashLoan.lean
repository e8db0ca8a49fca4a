import QuorumCredit.Frames
import QuorumCredit.Host.Component
/-!
# Flash loans

`flash_loan.rs`: money lent to an allowed callback and asked back in the same
transaction. The source leaves the invocation of the callback to the host; here
its behaviour is an argument, any list of token transfers by others and of
repayments. No other entry point writes these entries, and the cap of a callback
is read but never written.
-/

open Host Function

namespace QuorumCredit

def flashLoanFeeBps : Int := 5
def defaultPerContractFlashCap : Int := 10000000000
def maxFlashLoanAmount : Int := 1000000000000
def minFlashLoanAmount : Int := 1000000
def flashLoanMinIntervalSecs : Nat := 60
def maxFlashLoanRecords : Nat := 10000

structure FlashLoanRecord where
  borrower : Address
  amount : Int
  fee : Int
  timestamp : Nat
  token : Address

structure FlashLoanStats where
  totalVolume : Int
  totalFees : Int
  loanCount : Nat
  periodFees : Int

structure PerContractCap where
  contract : Address
  borrowedAmount : Int
  cap : Int
  lastReset : Nat

/-- The storage entries of the module. -/
structure FlashLoans where
  flashLoanStats : Option FlashLoanStats
  flashLoanHistory : List FlashLoanRecord
  flashLoanPerContractCap : Address → Option PerContractCap
  flashLoanLastTimestamp : Address → Option Nat
  allowedFlashLoanCallbacks : Address → Bool

/-- What `initialize_flash_loans` leaves. -/
def FlashLoans.initial : FlashLoans :=
  { flashLoanStats := some ⟨0, 0, 0, 0⟩, flashLoanHistory := [], flashLoanPerContractCap := fun _ => none
    flashLoanLastTimestamp := fun _ => none, allowedFlashLoanCallbacks := fun _ => false }

/-- These entries, beside what the entry points share with the rest of the contract. -/
structure FlashStore where
  access : Access
  bank : Ledger
  flashLoans : FlashLoans

instance : Part FlashStore Access where
  get := FlashStore.access
  set a s := { s with access := a }
instance : Part FlashStore (Bank Address Address) where
  get := FlashStore.bank
  set b s := { s with bank := b }
instance : Part FlashStore FlashLoans where
  get := FlashStore.flashLoans
  set g s := { s with flashLoans := g }

/-! ## The callback -/

def repayFlashLoan (borrower : Address) (principal fee : Int) : Contract Ledger Unit := do
  let scaled ← i128 (.error .arithmeticError) (principal * flashLoanFeeBps)
  require (fee = scaled.tdiv 10000) (.error .invalidFeeAmount)
  let total ← i128 (.error .arithmeticError) (principal + fee)
  let ctx ← ask
  collect ctx.config.token borrower total

inductive CallbackAct where
  | transfer (token src dst : Address) (amount : Int)
  | repayFlashLoan (borrower : Address) (principal fee : Int)
deriving DecidableEq, Repr

/-- Nobody but the contract moves what the contract holds. -/
def CallbackAct.run : CallbackAct → Contract Ledger Unit
  | .transfer token src dst amount => do
    let ctx ← ask
    require (src ≠ ctx.contract) (.unauthorized ctx.contract)
    Bank.transfer .token token src dst amount
  | .repayFlashLoan borrower principal fee => QuorumCredit.repayFlashLoan borrower principal fee

def runCallback : List CallbackAct → Contract Ledger Unit
  | [] => return ()
  | act :: acts => do
    act.run
    runCallback acts

/-! ## Entry points -/

def checkFlashLoanCooldown (callback : Address) : Contract FlashLoans Unit := do
  match ← look (·.flashLoanLastTimestamp callback) with
  | some last => do
    let ctx ← ask
    require (flashLoanMinIntervalSecs ≤ ctx.now - last) (.error .flashLoanCooldownActive)
  | none => return ()

def checkPerContractCap (contract : Address) : Contract FlashLoans Int := do
  match ← look (·.flashLoanPerContractCap contract) with
  | some cap => i128 .arithmetic (cap.cap - cap.borrowedAmount)
  | none => return defaultPerContractFlashCap

def validatePerContractCap (contract : Address) (amount : Int) : Contract FlashLoans Unit := do
  let available ← checkPerContractCap contract
  require (amount ≤ available) (.error .flashLoanCapExceeded)

/-- The last 10000 loans are kept. -/
def addFlashLoanRecord (record : FlashLoanRecord) : Contract FlashLoans Unit :=
  alter fun g : FlashLoans =>
    let records := g.flashLoanHistory ++ [record]
    { g with flashLoanHistory := if maxFlashLoanRecords < records.length then records.tail else records }

def updateFlashLoanStats (amount fee : Int) : Contract FlashLoans Unit := do
  let stats ← orFail (← look (·.flashLoanStats)) (.error .notFound)
  let totalVolume ← i128 (.error .arithmeticError) (stats.totalVolume + amount)
  let totalFees ← i128 (.error .arithmeticError) (stats.totalFees + fee)
  let loanCount ← u64 (.error .arithmeticError) (stats.loanCount + 1)
  let periodFees ← i128 (.error .arithmeticError) (stats.periodFees + fee)
  alter fun g : FlashLoans => { g with flashLoanStats := some { totalVolume, totalFees, loanCount, periodFees } }

def flashLoan (amount : Int) (callback : Address) (acts : List CallbackAct) : Contract FlashStore Unit := do
  requireNotPaused
  require (minFlashLoanAmount ≤ amount) (.error .invalidAmount)
  require (amount ≤ maxFlashLoanAmount) (.error .invalidAmount)
  let allowed ← look (·.flashLoans.allowedFlashLoanCallbacks callback)
  require (allowed = true) (.error .flashLoanCallbackNotAllowlisted)
  checkFlashLoanCooldown callback
  let ctx ← ask
  let token := ctx.config.token
  let balance ← look (·.bank.balance token ctx.contract)
  require (amount ≤ balance) (.error .insufficientFunds)
  validatePerContractCap callback amount
  let scaled ← i128 .arithmetic (amount * flashLoanFeeBps)
  let fee := scaled.tdiv 10000
  let _ ← i128 .arithmetic (amount + fee)
  pay token callback amount
  runCallback acts
  -- the fee is not asked for
  let balanceAfter ← look (·.bank.balance token ctx.contract)
  require (balance ≤ balanceAfter) (.error .flashLoanNotRepaid)
  addFlashLoanRecord { borrower := callback, amount, fee, timestamp := ctx.now, token }
  updateFlashLoanStats amount fee
  alter fun s : FlashStore =>
    { s with
      flashLoans.flashLoanLastTimestamp := update s.flashLoans.flashLoanLastTimestamp callback (some ctx.now) }

def setFlashLoanCallbackAllowed (adminSigners : List Address) (callback : Address) (allowed : Bool) :
    Contract FlashLoans Unit := do
  requireAdminApproval adminSigners
  alter fun g : FlashLoans =>
    { g with allowedFlashLoanCallbacks := update g.allowedFlashLoanCallbacks callback allowed }

inductive FlashOp where
  | flashLoan (amount : Int) (callback : Address) (acts : List CallbackAct)
  | repayFlashLoan (borrower : Address) (principal fee : Int)
  | setFlashLoanCallbackAllowed (adminSigners : List Address) (callback : Address) (allowed : Bool)

def FlashOp.run : FlashOp → Contract FlashStore Unit
  | .flashLoan amount callback acts => QuorumCredit.flashLoan amount callback acts
  | .repayFlashLoan borrower principal fee => monadLift (QuorumCredit.repayFlashLoan borrower principal fee)
  | .setFlashLoanCallbackAllowed signers callback allowed =>
    monadLift (QuorumCredit.setFlashLoanCallbackAllowed signers callback allowed)

/-- The flash loans as a part of the contract: the other entry points may change
the world, the guards' state and the money. -/
def flashLoans : Component World (List Address) Context Failure FlashStore FlashOp where
  run := FlashOp.run
  context w signers := { w with signers }
  drift w s w' s' := w.now ≤ w'.now ∧ w'.contract = w.contract ∧ s'.flashLoans = s.flashLoans

abbrev FlashHistory := List (Situated World FlashStore × Event World (List Address) FlashStore FlashOp)

/-- The contract after its initialization. -/
def flashStart (world : World) (access : Access) (bank : Ledger) : Situated World FlashStore :=
  ⟨world, ⟨access, bank, .initial⟩⟩

end QuorumCredit
