import QuorumCredit.Records
import QuorumCredit.Host.Component
/-!
# Vouch milestones

`vouch_milestones.rs`: a voucher takes its stake back in quarters, as the loan it
names reaches its milestones. What was released is kept by loan, the stake is looked
up by the loan's borrower. The calls on loans and vouches run in between.
-/

open Host Function

namespace QuorumCredit

inductive LoanMilestone where
  | issued | firstPaymentMade | halfRepaid | completed
deriving DecidableEq, Repr

def LoanMilestone.releaseBps : LoanMilestone → Int
  | .issued | .firstPaymentMade | .halfRepaid | .completed => 2500

def allMilestones : List LoanMilestone := [.issued, .firstPaymentMade, .halfRepaid, .completed]

/-- The share of a release that is added when the milestone is reached early. -/
def earlyBonusBps : Int := 500

/-- The entries of `vouch_milestones.rs`. -/
structure Milestones where
  vouchMilestoneRelease : Nat → Address → LoanMilestone → Option Int
  milestoneAchieved : Nat → LoanMilestone → Option Nat

def Milestones.empty : Milestones :=
  { vouchMilestoneRelease := fun _ _ _ => none, milestoneAchieved := fun _ _ => none }

structure MilestoneStore where
  core : Store
  milestones : Milestones

instance : Part MilestoneStore Store where
  get := MilestoneStore.core
  set x s := { s with core := x }
instance : Part MilestoneStore Milestones where
  get := MilestoneStore.milestones
  set x s := { s with milestones := x }

/-- `Issued` is reached by every loan there is, whatever has become of it. -/
def milestoneReached (loan : LoanRecord) : LoanMilestone → Bool
  | .issued => true
  | .firstPaymentMade => decide (0 < loan.amountRepaid)
  | .halfRepaid => decide (0 < loan.amount ∧ loan.amount.tdiv 2 ≤ loan.amountRepaid)
  | .completed => loan.repaid || decide (loan.status = .repaid)

def isEarly (now : Nat) (loan : LoanRecord) : Bool :=
  if loan.deadline ≤ loan.disbursementTimestamp then false
  else decide (now ≤ loan.disbursementTimestamp + (loan.deadline - loan.disbursementTimestamp) / 2)

/-- What the voucher has had released for the loan. -/
def totalReleased (loanId : Nat) (voucher : Address) : Contract Milestones Int := do
  let released ← look (·.vouchMilestoneRelease loanId voucher)
  sumI128 .arithmetic 0 (allMilestones.filterMap released)

/-- With the bonus, if the milestone is reached in the first half of the term. -/
def withEarlyBonus (loan : LoanRecord) (releaseAmount : Int) : Contract MilestoneStore Int := do
  let ctx ← ask
  if isEarly ctx.now loan = true then do
    let product ← i128 .arithmetic (releaseAmount * earlyBonusBps)
    i128 (.error .stakeOverflow) (releaseAmount + product.tdiv 10000)
  else return releaseAmount

/-- The first achievement of a milestone keeps its time. -/
def Milestones.release (m : Milestones) (loanId : Nat) (voucher : Address) (milestone : LoanMilestone) (amount : Int)
    (now : Nat) : Milestones :=
  { m with
    vouchMilestoneRelease := update m.vouchMilestoneRelease loanId
      (update (m.vouchMilestoneRelease loanId) voucher
        (update (m.vouchMilestoneRelease loanId voucher) milestone (some amount)))
    milestoneAchieved := update m.milestoneAchieved loanId
      (update (m.milestoneAchieved loanId) milestone (some ((m.milestoneAchieved loanId milestone).getD now))) }

/-- Takes the amount off the record and pays it. -/
def takeStake (borrower : Address) (v : VouchRecord) (vouches : List VouchRecord) (amount : Int) :
    Contract Vault Unit := do
  requireAllowedToken v.token
  alter fun x : Vault =>
    { x with
      vouching := (x.vouching.setVouches borrower (reduceStake v amount vouches)).invalidateWeightedStakeCache
        borrower v.token }
  pay v.token v.voucher amount

/-- The loan's status is not looked at, nor whether the vouches are behind it. -/
def releaseVouchAtMilestone (loanId : Nat) (voucher : Address) (milestone : LoanMilestone) :
    Contract MilestoneStore Int := do
  requireAuth voucher
  (requireNotThawing : Contract Store _)
  let loan ← orFail (← look (·.core.book.loan loanId)) (.error .noActiveLoan)
  require (milestoneReached loan milestone = true) (.error .milestoneNotReached)
  let released ← look (·.milestones.vouchMilestoneRelease loanId voucher milestone)
  require (released = none) (.error .milestoneAlreadyReleased)
  let vouches ← orFail (← look (·.core.vault.vouching.vouches loan.borrower)) (.error .noVouchesForBorrower)
  let v ← orFail (findVouch voucher vouches) (.error .voucherNotFound)
  let total ← totalReleased loanId voucher
  let originalStake ← i128 (.error .stakeOverflow) (v.stake + total)
  let product ← i128 .arithmetic (originalStake * milestone.releaseBps)
  let releaseAmount ← withEarlyBonus loan (product.tdiv 10000)
  let releaseAmount := min releaseAmount v.stake
  if releaseAmount ≤ 0 then return 0
  else do
    (takeStake loan.borrower v vouches releaseAmount : Contract Store _)
    let ctx ← ask
    (alter (·.release loanId voucher milestone releaseAmount ctx.now) : Contract Milestones Unit)
    return releaseAmount

inductive MilestoneOp where
  | releaseVouchAtMilestone (loanId : Nat) (voucher : Address) (milestone : LoanMilestone)
  /-- A call on the loans and the vouches. -/
  | core (op : Op)

def MilestoneOp.run : MilestoneOp → Contract MilestoneStore Unit
  | .releaseVouchAtMilestone loanId voucher milestone =>
    discard (QuorumCredit.releaseVouchAtMilestone loanId voucher milestone)
  | .core op => monadLift (dispatch op)

/-- The releases with the loans and the vouches they touch, which nothing else writes. -/
def vouchMilestones : Component World (List Address) Context Failure MilestoneStore MilestoneOp where
  run := MilestoneOp.run
  context w signers := { w with signers }
  drift w s w' s' := w.now ≤ w'.now ∧ w'.contract = w.contract ∧ s'.milestones = s.milestones ∧
    s'.core.book = s.core.book ∧ s'.core.records = s.core.records

abbrev MilestoneHistory :=
  List (Situated World MilestoneStore × Event World (List Address) MilestoneStore MilestoneOp)

/-- After `initialize`. -/
def milestoneStart (world : World) (bank : Ledger) : Situated World MilestoneStore :=
  ⟨world, ⟨(genesis world bank).store, .empty⟩⟩

end QuorumCredit
