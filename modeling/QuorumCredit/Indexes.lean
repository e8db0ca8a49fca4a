import QuorumCredit.Records
/-!
# Indexes, caches and statistics

Beside the records, `vouch.rs` keeps for each voucher the borrowers behind whom
it has records, its statistics, and two caches computed from all of these. The
frames here are about any view of these entries: which calls leave alone a view
that does not look at the records and the queues, at the statistics, or at the
yield cache.
-/

open Host Function

namespace QuorumCredit

/-! ## Views -/

section

variable {γ : Type}

def Vault.view (f : Vouching → γ) (x : Vault) : γ := f x.vouching

/-- What `f` reads off the vouching entries. -/
def Store.view (f : Vouching → γ) (s : Store) : γ := s.vault.view f

variable {f : Vouching → γ}

instance : Inside (Store.view f) Vault (Vault.view f) where
instance : Inside (Vault.view f) Vouching f where
instance : Apart (Vault.view f) Ledger where
instance : Apart (Store.view f) Access where
instance : Apart (Store.view f) LoanBook where
instance : Apart (Store.view f) Ballots where
instance : Apart (Store.view f) Terms where
instance : Apart (Store.view f) Slashing where

/-- `f` looks at no record and no queue. -/
class OffRecords (f : Vouching → γ) : Prop where
  out : ∀ x vouches queue, f { x with vouches, withdrawalQueue := queue } = f x := by intros; rfl

/-- `f` looks at no statistics. -/
class OffStats (f : Vouching → γ) : Prop where
  out : ∀ x stats, f { x with voucherStats := stats } = f x := by intros; rfl

end

instance : OffRecords Vouching.voucherHistory where
instance : OffStats Vouching.voucherHistory where
instance : OffYields Vouching.voucherHistory where
instance : OffRecords Vouching.weightedStakeCache where
instance : OffStats Vouching.weightedStakeCache where
instance : OffYields Vouching.weightedStakeCache where
instance : OffRecords Vouching.yieldCache where
instance : OffStats Vouching.yieldCache where
instance : OffRecords Vouching.voucherStats where
instance : OffYields Vouching.voucherStats where

/-! ## What leaves a view alone -/

section

variable {γ : Type} {f : Vouching → γ}

section Stats

variable [OffStats f]

instance (voucher : Address) (earned : Int) : Keeps f (addYieldEarned voucher earned) where
  out ctx x := by
    simp only [addYieldEarned, yields_steps, yields_i128]
    intro _
    exact OffStats.out _ _

instance (voucher : Address) (amount : Int) : Keeps f (addSlashed voucher amount) where
  out ctx x := by
    simp only [addSlashed, yields_steps, yields_i128]
    intro _
    exact OffStats.out _ _

instance (token : Address) (dist : List YieldDistributionEntry) (penalty total : Int) (vouches : List VouchRecord) :
    Keeps (Vault.view f) (payoutVouchers token dist penalty total vouches) := by
  induction vouches with
  | nil => unfold payoutVouchers; infer_instance
  | cons v vs ih => unfold payoutVouchers payoutVoucher; dsimp only; infer_instance

instance (loanToken : Address) (bps total : Int) (remaining vouches : List VouchRecord) :
    Keeps (Vault.view f) (seizeStakes loanToken bps total remaining vouches) := by
  induction vouches generalizing total remaining with
  | nil => unfold seizeStakes; infer_instance
  | cons v vs ih => unfold seizeStakes seizeStake; dsimp only; infer_instance

end Stats

section Records

variable [OffRecords f]

theorem view_setVouches (x : Vouching) (b : Address) (vouches : List VouchRecord) : f (x.setVouches b vouches) = f x :=
  OffRecords.out x _ x.withdrawalQueue

theorem view_removeVouches (x : Vouching) (b : Address) : f (x.removeVouches b) = f x :=
  OffRecords.out x _ x.withdrawalQueue

theorem view_setQueue (x : Vouching) (b : Address) (queue : List QueuedWithdrawal) : f (x.setQueue b queue) = f x :=
  OffRecords.out x x.vouches _

instance (borrower : Address) (vouches : List VouchRecord) : Keeps f (setVouches borrower vouches) where
  out ctx x := by
    rw [setVouches, yields_alter]
    exact view_setVouches x borrower vouches

instance (voucher borrower token : Address) (isPartial : Bool) (fee : Int) :
    Keeps f (queueWithdrawalInternal voucher borrower token isPartial fee) where
  out ctx x := by
    simp only [queueWithdrawalInternal, yields_steps]
    intro _ _
    exact view_setQueue x borrower _

instance (borrower : Address) (rest : List VouchRecord) : Keeps (Vault.view f) (alter fun x : Vault =>
    { x with vouching := (x.vouching.setVouches borrower rest).setQueue borrower [] } : Contract Vault Unit) where
  out ctx x := by
    rw [yields_alter]
    exact (view_setQueue _ borrower []).trans (view_setVouches x.vouching borrower rest)

instance (borrower : Address) : Keeps (Vault.view f) (alter fun x : Vault =>
    { x with vouching := x.vouching.removeVouches borrower } : Contract Vault Unit) where
  out ctx x := by
    rw [yields_alter]
    exact view_removeVouches x.vouching borrower

instance (borrower : Address) (rest : List VouchRecord) : Keeps (Vault.view f) (alter fun x : Vault =>
    { x with vouching := if rest = [] then x.vouching.removeVouches borrower else x.vouching.setVouches borrower rest } :
      Contract Vault Unit) where
  out ctx x := by
    rw [yields_alter]
    split
    · exact view_removeVouches x.vouching borrower
    · exact view_setVouches x.vouching borrower rest

instance (borrower : Address) : Keeps (Vault.view f) (processWithdrawalQueue borrower) := by
  unfold processWithdrawalQueue; infer_instance

instance (borrower : Address) : Keeps (Vault.view f) (slashAll borrower) := by
  unfold slashAll; infer_instance

instance (borrower : Address) : Keeps (Vault.view f) (returnAll borrower) := by
  unfold returnAll; infer_instance

variable [OffStats f]

instance (loan : LoanRecord) (borrower : Address) (dist : List YieldDistributionEntry) (penalty : Int) :
    Keeps (Vault.view f) (settleVouches loan borrower dist penalty) := by
  unfold settleVouches; infer_instance

instance (borrower loanToken : Address) (bps : Int) : Keeps (Vault.view f) (slashVouches borrower loanToken bps) := by
  unfold slashVouches; dsimp only; infer_instance

end Records

/-! ### Entry points -/

set_option synthInstance.maxSize 200000

instance (borrower : Address) (payment : Int) (token : Address) :
    Keeps (Store.view f) (repayPartial borrower payment token) := by
  unfold repayPartial; infer_instance

instance (borrower : Address) (amount threshold : Int) (token : Address) :
    Keeps (Store.view f) (refinanceLoan borrower amount threshold token) := by
  unfold refinanceLoan requireEligible requireThreshold; infer_instance

instance (borrower : Address) (amount : Int) (deadline : Nat) :
    Keeps (Store.view f) (issuePoolLoan borrower amount deadline) := by
  unfold issuePoolLoan; infer_instance

instance (deadline : Nat) (pool : List (Address × Int)) : Keeps (Store.view f) (issuePool deadline pool) := by
  induction pool with
  | nil => unfold issuePool; infer_instance
  | cons entry rest ih => unfold issuePool; infer_instance

instance (signers borrowers : List Address) (amounts : List Int) :
    Keeps (Store.view f) (createLoanPool signers borrowers amounts) := by
  unfold createLoanPool; infer_instance

instance (borrower : Address) : Keeps (Store.view f) (applySlashRecovery borrower) where
  out ctx s := by
    simp only [applySlashRecovery, yields_steps]
    split
    · exact (yields_pure _ _ _ _).2 rfl
    · exact Keeps.out (f := Store.view f) ctx s

instance (signers : List Address) (slashId : Nat) (reason : String) :
    Keeps (Store.view f) (reverseSlash signers slashId reason) := by
  unfold reverseSlash; infer_instance

instance (signers : List Address) (borrower : Address) :
    Keeps (Store.view f) (releaseSlashEscrow signers borrower) := by
  unfold releaseSlashEscrow; infer_instance

instance (signers : List Address) (recipient : Address) : Keeps (Store.view f) (slashTreasury signers recipient) := by
  unfold slashTreasury; infer_instance

instance (signers : List Address) (recipient : Address) (amount : Int) :
    Keeps (Store.view f) (withdrawSlashTreasury signers recipient amount) := by
  unfold withdrawSlashTreasury; infer_instance

instance (borrower : Address) : Keeps (Store.view f) (appealSlash borrower) := by
  unfold appealSlash; infer_instance

instance (borrower : Address) : Keeps (Store.view f) (finalizeAppealInternal borrower) := by
  unfold finalizeAppealInternal; infer_instance

instance (borrower : Address) : Keeps (Store.view f) (finalizeAppeal borrower) := by
  unfold finalizeAppeal; infer_instance

instance (voter borrower : Address) (approve : Bool) : Keeps (Store.view f) (voteAppeal voter borrower approve) := by
  unfold voteAppeal; infer_instance

instance (borrower token : Address) (amount threshold : Int) :
    Keeps f (requireCollateral borrower token amount threshold) :=
  ⟨fun _ _ => (requireCollateral_spec borrower token amount threshold).mono fun _ _ h => congrArg f h.1⟩

instance (voucher borrower : Address) : Keeps f (requireVouch voucher borrower) :=
  ⟨fun _ x => (requireVouch_spec voucher borrower x).mono fun _ _ h => congrArg f h.2⟩

instance [OffYields f] (borrower : Address) (amount threshold : Int) (purpose : String) (token : Address) :
    Keeps (Store.view f) (requestLoan borrower amount threshold purpose token) := by
  unfold requestLoan admitLoan disburseLoan; infer_instance

/-- The calls that neither work on records nor settle them write the yield cache at most. -/
theorem dispatch_keeps_unsettled [OffYields f] {op : Op} (h : op.stakes = false) (hnone : op.resolves = none) :
    Keeps (Store.view f) (dispatch op) := by
  cases op
  case vouch | batchVouch | increaseStake | decreaseStake | withdrawVouch | requestWithdrawal | partialWithdraw
      | transferVouch | splitVouch | rotateToNewBorrower => cases h
  case repay | slash | autoSlash | claimExpiredLoan | executeSlashVote | executePendingSlash => cases hnone
  all_goals
    dsimp only [dispatch]
    infer_instance

variable [OffRecords f]

instance (voucher borrower : Address) (fee : Int) : Keeps (Store.view f) (requestWithdrawal voucher borrower fee) := by
  unfold requestWithdrawal; infer_instance

instance (voucher borrower : Address) : Keeps (Store.view f) (partialWithdraw voucher borrower) := by
  unfold partialWithdraw; infer_instance

instance (signers : List Address) (borrower : Address) : Keeps (Store.view f) (slash signers borrower) := by
  unfold slash; infer_instance

instance (borrower : Address) : Keeps (Store.view f) (autoSlash borrower) := by
  unfold autoSlash; infer_instance

instance (borrower : Address) : Keeps (Store.view f) (claimExpiredLoan borrower) := by
  unfold claimExpiredLoan; infer_instance

variable [OffStats f]

instance (loan : LoanRecord) (borrower : Address) (penalty : Int) :
    Keeps (Store.view f) (closeLoan loan borrower penalty) := by
  unfold closeLoan; infer_instance

instance (borrower : Address) (paid : Payment) (wasDefaulted : Bool) :
    Keeps (Store.view f) (settlePayment borrower paid wasDefaulted) := by
  unfold settlePayment; dsimp only; infer_instance

instance (borrower : Address) (payment : Int) : Keeps (Store.view f) (repay borrower payment) := by
  unfold repay repayLoan; infer_instance

instance (borrower : Address) : Keeps (Store.view f) (executeSlash borrower) := by
  unfold executeSlash; dsimp only; infer_instance

instance (borrower : Address) : Keeps (Store.view f) (executeSlashVote borrower) := by
  unfold executeSlashVote; infer_instance

instance (borrower : Address) : Keeps (Store.view f) (executePendingSlash borrower) := by
  unfold executePendingSlash; infer_instance

/-- The vouching calls that neither queue a withdrawal nor take out half: the calls that write an index or a cache. -/
def Op.indexes : Op → Bool
  | .requestWithdrawal .. | .partialWithdraw .. => false
  | op => op.stakes

/-- The call that writes the yield cache. -/
def Op.locksYield : Op → Bool
  | .requestLoan .. => true
  | _ => false

theorem dispatch_keeps_yields {op : Op} (h : op.indexes = false) (hlocks : op.locksYield = false) :
    Keeps (Store.view f) (dispatch op) := by
  cases op
  case vouch | batchVouch | increaseStake | decreaseStake | withdrawVouch | transferVouch | splitVouch
      | rotateToNewBorrower => cases h
  case requestLoan => cases hlocks
  all_goals
    dsimp only [dispatch]
    infer_instance

theorem dispatch_keeps_view [OffYields f] {op : Op} (h : op.indexes = false) : Keeps (Store.view f) (dispatch op) := by
  cases hlocks : op.locksYield with
  | false => exact dispatch_keeps_yields h hlocks
  | true =>
    cases op
    case requestLoan =>
      dsimp only [dispatch]
      infer_instance
    all_goals cases hlocks

end

end QuorumCredit
