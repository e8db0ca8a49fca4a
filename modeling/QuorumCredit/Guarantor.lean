import QuorumCredit.Stakes
import QuorumCredit.Host.Component
/-!
# Guarantors

`guarantor.rs`: a guarantor locks a stake behind a loan, which goes back on a
release or to the borrower's vouchers on a default. The record of the guarantee is
one per loan. The loans and the vouches are those of the contract, whose calls run
in between.
-/

open Host Function

namespace QuorumCredit

inductive GuaranteeStatus where
  | active | released | triggered | claimed
deriving DecidableEq, Repr

structure GuarantorRecord where
  loanId : Nat
  guarantor : Address
  signatureVerified : Bool
  guaranteeAmount : Int
  token : Address
  requestedAt : Nat
  releasedAt : Option Nat
  status : GuaranteeStatus
deriving DecidableEq, Repr

structure GuarantorObligation where
  guarantor : Address
  loanId : Nat
  borrower : Address
  maxLiability : Int
  amountPaid : Int
  createdAt : Nat
  closedAt : Option Nat
deriving DecidableEq, Repr

structure GuarantorStats where
  totalGuarantees : Nat
  successfulGuarantees : Nat
  triggeredGuarantees : Nat
  totalGuaranteed : Int
  totalPaidOut : Int
  reputationScore : Nat
  lastActivity : Nat
deriving DecidableEq, Repr

/-- The entries of `guarantor.rs`; the record is by loan. -/
structure Guarantees where
  guarantorRecord : Nat → Option GuarantorRecord
  guarantorObligation : Address → Nat → Option GuarantorObligation
  guarantorStats : Address → Option GuarantorStats

def Guarantees.empty : Guarantees :=
  { guarantorRecord := fun _ => none, guarantorObligation := fun _ _ => none, guarantorStats := fun _ => none }

structure GuaranteeStore where
  core : Store
  guarantees : Guarantees

instance : Host.Part GuaranteeStore Store where
  get := GuaranteeStore.core
  set x s := { s with core := x }
instance : Host.Part GuaranteeStore Guarantees where
  get := GuaranteeStore.guarantees
  set x s := { s with guarantees := x }

namespace Guarantees

def setRecord (g : Guarantees) (loanId : Nat) (record : GuarantorRecord) : Guarantees :=
  { g with guarantorRecord := update g.guarantorRecord loanId (some record) }

def setObligation (g : Guarantees) (guarantor : Address) (loanId : Nat) (obligation : GuarantorObligation) :
    Guarantees :=
  { g with
    guarantorObligation :=
      update g.guarantorObligation guarantor (update (g.guarantorObligation guarantor) loanId (some obligation)) }

def setStats (g : Guarantees) (guarantor : Address) (stats : GuarantorStats) : Guarantees :=
  { g with guarantorStats := update g.guarantorStats guarantor (some stats) }

end Guarantees

def onGuarantees (f : Guarantees → Guarantees) : Contract Guarantees Unit := alter f

/-- `helpers::get_loan_by_id`. -/
def findLoan (loanId : Nat) : Contract LoanBook LoanRecord := do
  orFail (← look (·.loan loanId)) (.error .noActiveLoan)

def getObligation (guarantor : Address) (loanId : Nat) : Contract Guarantees GuarantorObligation := do
  orFail (← look (·.guarantorObligation guarantor loanId)) (.error .guarantorNotFound)

def getStats (guarantor : Address) : Contract Guarantees GuarantorStats := do
  orFail (← look (·.guarantorStats guarantor)) (.error .guarantorNotFound)

/-! ## Entry points -/

/-- The record is written whether or not the loan has one: the check is of the
loan's own `guarantor`, which it does not set. -/
def requestGuarantorForLoan (loanId : Nat) (guarantorAddress : Address) (guaranteeAmount : Int) (token : Address) :
    Contract GuaranteeStore Unit := do
  let loan ← (findLoan loanId : Contract Store _)
  (requireNotPaused : Contract Store _)
  require (guarantorAddress ≠ loan.borrower) (.error .invalidGuarantor)
  require (¬ (guaranteeAmount ≤ 0 ∨ loan.amount < guaranteeAmount)) (.error .invalidGuaranteeAmount)
  require (loan.guarantor = none) (.error .guarantorAlreadyAssigned)
  requireAuth guarantorAddress
  requireAllowedToken token
  (collect token guarantorAddress guaranteeAmount : Contract Store _)
  let ctx ← ask
  onGuarantees fun g =>
    (g.setRecord loanId
      { loanId, guarantor := guarantorAddress, signatureVerified := true, guaranteeAmount, token
        requestedAt := ctx.now, releasedAt := none, status := .active }).setObligation guarantorAddress loanId
      { guarantor := guarantorAddress, loanId, borrower := loan.borrower, maxLiability := guaranteeAmount
        amountPaid := 0, createdAt := ctx.now, closedAt := none }
  let stored ← look (·.guarantees.guarantorStats guarantorAddress)
  let stats := stored.getD
    { totalGuarantees := 0, successfulGuarantees := 0, triggeredGuarantees := 0, totalGuaranteed := 0
      totalPaidOut := 0, reputationScore := 500, lastActivity := ctx.now }
  let totalGuarantees ← u32 .arithmetic (stats.totalGuarantees + 1)
  let totalGuaranteed ← i128 (.error .arithmeticOverflow) (stats.totalGuaranteed + guaranteeAmount)
  onGuarantees (·.setStats guarantorAddress
    { stats with totalGuarantees, totalGuaranteed, lastActivity := ctx.now })

/-- Anybody may call it, whatever the state of the loan. -/
def releaseGuarantor (loanId : Nat) : Contract GuaranteeStore Unit := do
  (requireNotPaused : Contract Store _)
  let record ← orFail (← look (·.guarantees.guarantorRecord loanId)) (.error .guarantorNotFound)
  require (record.status = .active) (.error .invalidGuaranteeStatus)
  let ctx ← ask
  onGuarantees (·.setRecord loanId { record with status := .released, releasedAt := some ctx.now })
  (pay record.token record.guarantor record.guaranteeAmount : Contract Store _)
  let obligation ← getObligation record.guarantor loanId
  onGuarantees (·.setObligation record.guarantor loanId { obligation with closedAt := some ctx.now })
  let stats ← getStats record.guarantor
  if obligation.amountPaid = 0 then do
    let successfulGuarantees ← u32 .arithmetic (stats.successfulGuarantees + 1)
    let reputation ← u32 .arithmetic (stats.reputationScore + 50)
    onGuarantees (·.setStats record.guarantor
      { stats with successfulGuarantees, reputationScore := min reputation 1000, lastActivity := ctx.now })
  else onGuarantees (·.setStats record.guarantor { stats with lastActivity := ctx.now })

/-- The loop of `claim_guarantor_coverage`: each voucher's part of the coverage. -/
def payCoverage (token : Address) (coverage totalStake : Int) : List VouchRecord → Int → Contract Ledger Int
  | [], distributed => return distributed
  | v :: vouches, distributed =>
    if v.token ≠ token then payCoverage token coverage totalStake vouches distributed
    else do
      let scaled ← i128 .arithmetic (coverage * v.stake)
      let share ← divI128 .arithmetic scaled totalStake
      if 0 < share then do
        pay token v.voucher share
        let distributed ← i128 .arithmetic (distributed + share)
        payCoverage token coverage totalStake vouches distributed
      else payCoverage token coverage totalStake vouches distributed

/-- The coverage goes to the vouchers by stake, and the rest to the borrower. -/
def distributeCoverage (borrower token : Address) (coverage : Int) : Contract Vault Unit := do
  let vouches ← look (·.records borrower)
  let totalStake ← sumI128 .arithmetic 0 ((vouches.filter (·.token = token)).map (·.stake))
  if 0 < totalStake then do
    let distributed ← payCoverage token coverage totalStake vouches 0
    let remainder ← i128 .arithmetic (coverage - distributed)
    if 0 < remainder then pay token borrower remainder else return ()
  else pay token borrower coverage

/-- Refused only when claimed before. -/
def claimGuarantorCoverage (loanId : Nat) : Contract GuaranteeStore Int := do
  (requireNotPaused : Contract Store _)
  let loan ← (findLoan loanId : Contract Store _)
  require (loan.status = .defaulted) (.error .invalidStateTransition)
  let record ← orFail (← look (·.guarantees.guarantorRecord loanId)) (.error .guarantorNotFound)
  require (record.status ≠ .claimed) (.error .guarantorAlreadyClaimed)
  let ctx ← ask
  onGuarantees (·.setRecord loanId { record with status := .claimed })
  let obligation ← getObligation record.guarantor loanId
  onGuarantees (·.setObligation record.guarantor loanId
    { obligation with amountPaid := record.guaranteeAmount, closedAt := some ctx.now })
  (distributeCoverage loan.borrower record.token record.guaranteeAmount : Contract Store _)
  let stats ← getStats record.guarantor
  let triggeredGuarantees ← u32 .arithmetic (stats.triggeredGuarantees + 1)
  let totalPaidOut ← i128 (.error .arithmeticOverflow) (stats.totalPaidOut + record.guaranteeAmount)
  onGuarantees (·.setStats record.guarantor
    { stats with
      triggeredGuarantees, totalPaidOut, reputationScore := stats.reputationScore - 100, lastActivity := ctx.now })
  return record.guaranteeAmount

inductive GuaranteeOp where
  | requestGuarantorForLoan (loanId : Nat) (guarantorAddress : Address) (guaranteeAmount : Int) (token : Address)
  | releaseGuarantor (loanId : Nat)
  | claimGuarantorCoverage (loanId : Nat)
  /-- A call on the loans and the vouches. -/
  | core (op : Op)

def GuaranteeOp.run : GuaranteeOp → Contract GuaranteeStore Unit
  | .requestGuarantorForLoan loanId guarantorAddress guaranteeAmount token =>
    QuorumCredit.requestGuarantorForLoan loanId guarantorAddress guaranteeAmount token
  | .releaseGuarantor loanId => QuorumCredit.releaseGuarantor loanId
  | .claimGuarantorCoverage loanId => discard (QuorumCredit.claimGuarantorCoverage loanId)
  | .core op => monadLift (dispatch op)

/-- The guarantors with the loans they stand for. What happens elsewhere leaves the
guarantees alone and the vouch records well formed; it may do anything to the loans. -/
def guarantors : Component World (List Address) Context Failure GuaranteeStore GuaranteeOp where
  run := GuaranteeOp.run
  context w signers := { w with signers }
  drift w s w' s' := w.now ≤ w'.now ∧ w'.contract = w.contract ∧ s'.guarantees = s.guarantees ∧
    ((∀ b, WellFormed (s.core.records b)) → ∀ b, WellFormed (s'.core.records b))

abbrev GuaranteeHistory :=
  List (Situated World GuaranteeStore × Event World (List Address) GuaranteeStore GuaranteeOp)

/-- After `initialize`. -/
def guaranteeStart (world : World) (bank : Ledger) : Situated World GuaranteeStore :=
  ⟨world, ⟨(genesis world bank).store, .empty⟩⟩

end QuorumCredit
