import QuorumCredit.BridgeRepay
import QuorumCredit.Stakes
/-!
# Recurring payments, and the ways to repay

`recurring_payment.rs`: a schedule that takes a payment from the borrower's token
allowance whenever one is due. With the repayments over the bridge it is one more
way to pay on a loan beside `repay`.
-/

open Host Function

namespace QuorumCredit

structure RecurringPaymentConfig where
  borrower : Address
  token : Address
  amount : Int
  frequencySecs : Nat
  startDate : Nat
  nextPaymentDue : Nat
  active : Bool
  successCount : Nat
  failureCount : Nat
  retryCount : Nat
deriving DecidableEq, Repr

/-- The schedules, and what the tokens have noted that the contract may take from an account. -/
structure Recurring where
  recurringPayment : Address → Option RecurringPaymentConfig
  allowance : Address → Address → Int

def Recurring.empty : Recurring := { recurringPayment := fun _ => none, allowance := fun _ _ => 0 }

structure PaymentStore where
  bridge : BridgeStore
  recurring : Recurring

def PaymentStore.core (s : PaymentStore) : Store := s.bridge.core

instance : Part PaymentStore BridgeStore where
  get := PaymentStore.bridge
  set b s := { s with bridge := b }
instance : Part PaymentStore Recurring where
  get := PaymentStore.recurring
  set r s := { s with recurring := r }

def loadSchedule (borrower : Address) : Contract Recurring RecurringPaymentConfig := do
  orFail (← look (·.recurringPayment borrower)) (.error .recurringPaymentNotFound)

def saveSchedule (borrower : Address) (config : RecurringPaymentConfig) : Contract Recurring Unit :=
  alter fun r => { r with recurringPayment := update r.recurringPayment borrower (some config) }

/-- `get_active_loan_record`, whatever its status. -/
def requireActiveLoan (borrower : Address) : Contract LoanBook LoanRecord := do
  orFail (← look (·.getActiveLoanRecord borrower)) (.error .noActiveLoan)

/-- The standard's `transfer_from` with the contract as spender. -/
def takeAllowed (token owner : Address) (amount : Int) : Contract PaymentStore Unit := do
  let allowed ← look (·.recurring.allowance token owner)
  require (amount ≤ allowed) .token
  (alter (fun r : Recurring =>
    { r with allowance := update r.allowance token (update (r.allowance token) owner (allowed - amount)) }) :
      Contract Recurring Unit)
  let ctx ← ask
  (Bank.transfer .token token owner ctx.contract amount : Contract Ledger Unit)

def setupRecurringPayment (borrower token : Address) (amount : Int) (frequencySecs startDate : Nat) :
    Contract PaymentStore Unit := do
  requireAuth borrower
  (requireNotThawing : Contract Store _)
  require (0 < amount ∧ frequencySecs ≠ 0) (.error .invalidAmount)
  requireAllowedToken token
  let _ ← (requireActiveLoan borrower : Contract Store _)
  let existing ← look (·.recurring.recurringPayment borrower)
  require (∀ config ∈ existing, config.active = false) (.error .recurringPaymentExists)
  saveSchedule borrower
    { borrower, token, amount, frequencySecs, startDate, nextPaymentDue := startDate, active := true
      successCount := 0, failureCount := 0, retryCount := 0 }

/-- The amount is counted whatever the token and however little is open; the loan is never settled. -/
def applyScheduled (loan : LoanRecord) (amount : Int) : Contract LoanBook Unit := do
  let amountRepaid ← i128 (.error .arithmeticError) (loan.amountRepaid + amount)
  onBook (·.setLoan loan.id { loan with amountRepaid })

def executeRecurringPayment (borrower : Address) : Contract PaymentStore Int := do
  (requireNotThawing : Contract Store _)
  let config ← loadSchedule borrower
  require (config.active = true) (.error .recurringPaymentInactive)
  let ctx ← ask
  require (config.nextPaymentDue ≤ ctx.now) (.error .recurringPaymentNotDue)
  let loan ← (requireActiveLoan borrower : Contract Store _)
  requireAllowedToken config.token
  takeAllowed config.token borrower config.amount
  (applyScheduled loan config.amount : Contract Store _)
  let nextPaymentDue ← u64 (.error .arithmeticError) (config.nextPaymentDue + config.frequencySecs)
  saveSchedule borrower
    { config with nextPaymentDue, successCount := min (config.successCount + 1) u32Max, retryCount := 0 }
  return config.amount

def recordRecurringPaymentFailure (borrower : Address) : Contract Recurring Nat := do
  let config ← loadSchedule borrower
  let retryCount := min (config.retryCount + 1) u32Max
  saveSchedule borrower { config with retryCount, failureCount := min (config.failureCount + 1) u32Max }
  return retryCount

def terminateRecurringPayment (borrower : Address) : Contract Recurring Unit := do
  requireAuth borrower
  let config ← loadSchedule borrower
  saveSchedule borrower { config with active := false }

/-! ## The system -/

inductive PaymentOp where
  /-- A call on the loans and the vouches, `repay` among them. -/
  | core (op : Op)
  | repayWithSwap (borrower paymentToken : Address) (paymentAmount : Int)
  | repayCrossChainAtomic (originChain loanId : Nat) (borrower : Address) (paymentAmount : Int)
      (attestation : BridgeAttestation)
  | setupRecurringPayment (borrower token : Address) (amount : Int) (frequencySecs startDate : Nat)
  | executeRecurringPayment (borrower : Address)
  | recordRecurringPaymentFailure (borrower : Address)
  | terminateRecurringPayment (borrower : Address)

section

variable (host : BridgeHost)

def PaymentOp.run : PaymentOp → Contract PaymentStore Unit
  | .core op => (monadLift (dispatch op : Contract Store Unit) : Contract PaymentStore Unit)
  | .repayWithSwap borrower paymentToken paymentAmount =>
    monadLift (QuorumCredit.repayWithSwap borrower paymentToken paymentAmount)
  | .repayCrossChainAtomic originChain loanId borrower paymentAmount attestation =>
    monadLift (QuorumCredit.repayCrossChainAtomic host originChain loanId borrower paymentAmount attestation)
  | .setupRecurringPayment borrower token amount frequencySecs startDate =>
    QuorumCredit.setupRecurringPayment borrower token amount frequencySecs startDate
  | .executeRecurringPayment borrower => discard (QuorumCredit.executeRecurringPayment borrower)
  | .recordRecurringPaymentFailure borrower =>
    discard (monadLift (QuorumCredit.recordRecurringPaymentFailure borrower))
  | .terminateRecurringPayment borrower => monadLift (QuorumCredit.terminateRecurringPayment borrower)

/-- The ways to repay, among the calls on loans and vouches. Prices, attestations,
allowances and balances may change in between. -/
def repayments : Component World (List Address) Context Failure PaymentStore PaymentOp where
  run := PaymentOp.run host
  context w signers := { w with signers }
  drift w s w' s' := w.now ≤ w'.now ∧ w'.contract = w.contract ∧ s'.core.book = s.core.book ∧
    s'.core.records = s.core.records ∧ s'.recurring.recurringPayment = s.recurring.recurringPayment

end

abbrev PaymentHistory := List (Situated World PaymentStore × Event World (List Address) PaymentStore PaymentOp)

/-- After `initialize`. -/
def paymentStart (world : World) (bank : Ledger) : Situated World PaymentStore :=
  ⟨world, { bridge := { core := (genesis world bank).store, bridges := .empty, swaps := .empty }, recurring := .empty }⟩

end QuorumCredit
