import QuorumCredit.Contract
/-!
# Guards and frames

What the guards let through, and what each entry point leaves alone. A frame is
an instance of `Keeps`, found from the shape of the code: a function that works
on another part of the storage keeps this one.
-/

open Host Function

namespace QuorumCredit

/-! ## Guards -/

section Guards

variable {σ : Type} {ctx : Context} {s : σ}

@[simp] theorem yields_requireAuth (who : Address) (Q : Unit → σ → Prop) :
    Yields (requireAuth who) ctx s Q ↔ (who ∈ ctx.signers ∧ who ≠ ctx.contract → Q () s) := by
  simp [requireAuth]

@[simp] theorem yields_requirePositiveAmount (amount : Int) (Q : Unit → σ → Prop) :
    Yields (requirePositiveAmount amount) ctx s Q ↔ (0 < amount → Q () s) := by
  simp [requirePositiveAmount]

@[simp] theorem yields_requireAllowedToken (token : Address) (Q : Unit → σ → Prop) :
    Yields (requireAllowedToken token) ctx s Q ↔
      (token = ctx.config.token ∨ token ∈ ctx.config.allowedTokens → Q () s) := by
  simp [requireAllowedToken]

theorem yields_requireSigners (signers : List Address) :
    Yields (requireSigners signers) ctx s fun _ s' => s' = s := by
  induction signers with
  | nil => simp [requireSigners]
  | cons signer rest ih =>
    simp only [requireSigners, yields_steps, yields_requireAuth]
    exact fun _ _ _ => ih

theorem yields_requireAdminApproval (signers : List Address) :
    Yields (requireAdminApproval signers) ctx s fun _ s' => s' = s := by
  simp only [requireAdminApproval, yields_steps]
  exact fun _ => yields_requireSigners signers

theorem yields_checkPermission (account : Address) (f : RolePermissions → Bool) :
    Yields (checkPermission account f) ctx s fun _ s' => s' = s := by
  simp only [checkPermission, yields_steps]
  split
  · simp
  · split <;> simp

@[simp] theorem yields_requireRatio (amount totalStake : Int) (ratio : Nat) (unit : Int) (Q : Unit → σ → Prop) :
    Yields (requireRatio amount totalStake ratio unit) ctx s Q ↔
      (FitsI128 (totalStake * ratio) → amount ≤ (totalStake * ratio).tdiv unit → Q () s) := by
  simp [requireRatio]

@[simp] theorem yields_onBook (f : LoanBook → LoanBook) (k : LoanBook) (Q : Unit → LoanBook → Prop) :
    Yields (onBook f) ctx k Q ↔ Q () (f k) := by
  simp [onBook]

@[simp] theorem yields_pay (token dst : Address) (amount : Int) (b : Ledger) (Q : Unit → Ledger → Prop) :
    Yields (pay token dst amount) ctx b Q ↔
      (0 ≤ amount → amount ≤ b.balance token ctx.contract → Q () (b.move token ctx.contract dst amount)) := by
  simp [pay]

@[simp] theorem yields_collect (token src : Address) (amount : Int) (b : Ledger) (Q : Unit → Ledger → Prop) :
    Yields (collect token src amount) ctx b Q ↔
      (0 ≤ amount → amount ≤ b.balance token src → Q () (b.move token src ctx.contract amount)) := by
  simp [collect]

@[simp] theorem yields_nextLoanId (k : LoanBook) (Q : Nat → LoanBook → Prop) :
    Yields nextLoanId ctx k Q ↔
      (k.loanCounter < u64Max → Q (k.loanCounter + 1) { k with loanCounter := k.loanCounter + 1 }) := by
  simp [nextLoanId]

end Guards

/-! ## Guards keep everything -/

section Keeps

variable {σ γ : Type} {f : σ → γ}

instance (who : Address) : Keeps f (requireAuth who) := by
  unfold requireAuth; infer_instance

instance (amount : Int) : Keeps f (requirePositiveAmount amount : Contract σ Unit) := by
  unfold requirePositiveAmount; infer_instance

instance (token : Address) : Keeps f (requireAllowedToken token : Contract σ Unit) := by
  unfold requireAllowedToken; infer_instance

instance (signers : List Address) : Keeps f (requireAdminApproval signers : Contract σ Unit) :=
  ⟨fun _ _ => (yields_requireAdminApproval signers).mono fun _ _ h => congrArg f h⟩

instance (account : Address) (p : RolePermissions → Bool) : Keeps f (checkPermission account p : Contract σ Unit) :=
  ⟨fun _ _ => (yields_checkPermission account p).mono fun _ _ h => congrArg f h⟩

instance (e : Failure) (x : Int) : Keeps f (i128 e x : Contract σ Int) := by
  unfold i128; infer_instance

instance (e : Failure) (n : Nat) : Keeps f (u64 e n : Contract σ Nat) := by
  unfold u64; infer_instance

instance (e : Failure) (x y : Int) : Keeps f (divI128 e x y : Contract σ Int) := by
  unfold divI128; infer_instance

instance (e : Failure) (acc : Int) (xs : List Int) : Keeps f (sumI128 e acc xs : Contract σ Int) :=
  ⟨fun w s => (yields_sumI128 e xs acc w s).mono fun _ _ h => congrArg f h.2⟩

instance (loan : LoanRecord) (owed : Int) (b : Bool) : Keeps f (prepaymentPenalty loan owed b : Contract σ Int) := by
  unfold prepaymentPenalty; infer_instance

instance (loan : LoanRecord) : Keeps f (refinancedRate loan : Contract σ Int) := by
  unfold refinancedRate; infer_instance

instance {α : Type} (x : Contract σ α) [Keeps f x] : Keeps f (discard x) := by
  unfold discard; infer_instance

end Keeps

instance (borrower : Address) : Keeps (id : LoanBook → LoanBook) (requireSlashable borrower) where
  out ctx k := by
    simp only [requireSlashable, yields_steps, id_eq]
    split <;> simp

instance (borrower : Address) : Keeps (id : Slashing → Slashing) (requireSlashCooldown borrower) where
  out ctx x := by
    simp only [requireSlashCooldown, yields_steps, id_eq]
    split <;> simp

instance (borrower : Address) : Keeps (id : Slashing → Slashing) (appealedEscrow borrower) where
  out ctx x := by
    simp only [appealedEscrow, yields_steps, id_eq]
    split <;> simp

theorem yields_requireFeeManagers (signers : List Address) (ctx : Context) (x : Slashing) :
    Yields (requireFeeManagers signers) ctx x fun _ x' => x' = x := by
  induction signers with
  | nil => simp [requireFeeManagers]
  | cons signer rest ih =>
    simp only [requireFeeManagers, yields_steps, yields_requireAuth]
    exact fun _ _ _ _ _ _ => ih

instance (signers : List Address) : Keeps (id : Slashing → Slashing) (requireFeeManagers signers) :=
  ⟨fun ctx x => yields_requireFeeManagers signers ctx x⟩

/-! ## The money -/

/-- The balances and transfers, as part of the storage. -/
def Store.bank (s : Store) : Ledger := s.vault.bank

instance : Inside Store.bank Vault Vault.bank where
instance : Apart Vault.bank Vouching where
instance : Apart Store.bank Access where
instance : Apart Store.bank LoanBook where
instance : Apart Store.bank Ballots where
instance : Apart Store.bank Terms where
instance : Apart Store.bank Slashing where

section

set_option synthInstance.maxSize 200000

/-! ## What the entry points leave alone

An entry point keeps whatever looks at none of the parts it works on. -/

variable {γ : Type} {f : Store → γ}

instance (book : LoanBook) (borrower : Address) : Keeps f (requireUnsettled book borrower) := by
  unfold requireUnsettled; infer_instance

section Access

variable [Apart f Access]

instance (borrower : Address) : Keeps f (admitBorrower borrower) := by
  unfold admitBorrower; infer_instance

instance (borrower : Address) (amount : Int) : Keeps f (checkPoolEntry borrower amount) := by
  unfold checkPoolEntry; infer_instance

instance (total : Int) (pool : List (Address × Int)) : Keeps f (checkPool total pool) := by
  induction pool generalizing total with
  | nil => unfold checkPool; infer_instance
  | cons entry rest ih => unfold checkPool; infer_instance

end Access

section Vouches

variable [Apart f Access] [Apart f Vault]

instance (voucher borrower : Address) (n : Int) : Keeps f (increaseStake voucher borrower n) := by
  unfold increaseStake; infer_instance

instance (voucher borrower : Address) (n : Int) : Keeps f (decreaseStake voucher borrower n) := by
  unfold decreaseStake; infer_instance

instance (voucher borrower : Address) : Keeps f (withdrawVouch voucher borrower) := by
  unfold withdrawVouch; infer_instance

instance (voucher borrower : Address) (n : Int) : Keeps f (requestWithdrawal voucher borrower n) := by
  unfold requestWithdrawal; infer_instance

instance (voucher borrower : Address) : Keeps f (partialWithdraw voucher borrower) := by
  unfold partialWithdraw; infer_instance

instance (src dst borrower : Address) : Keeps f (transferVouch src dst borrower) := by
  unfold transferVouch; infer_instance

instance (voucher borrower newVoucher : Address) (amount : Int) :
    Keeps f (splitVouch voucher borrower newVoucher amount) := by
  unfold splitVouch; infer_instance

instance (voucher oldBorrower newBorrower : Address) :
    Keeps f (rotateToNewBorrower voucher oldBorrower newBorrower) := by
  unfold rotateToNewBorrower; infer_instance

variable [Apart f LoanBook]

instance (cfg : VouchConfig) (voucher borrower : Address) (stake : Int) (token : Address) (chainId : Option Nat) :
    Keeps f (validateVouch cfg voucher borrower stake token chainId) := by
  unfold validateVouch; infer_instance

instance (voucher borrower : Address) (stake : Int) (token : Address) (chainId : Nat) :
    Keeps f (vouch voucher borrower stake token chainId) := by
  unfold vouch doVouch; infer_instance

instance (cfg : VouchConfig) (voucher borrower : Address) (stake : Int) (token : Address) (chainId : Option Nat) :
    Keeps f (admitVouch cfg voucher borrower stake token chainId) := by
  unfold admitVouch; infer_instance

instance (cfg : VouchConfig) (voucher borrower : Address) (stake : Int) (token : Address) (chainId : Option Nat) :
    Keeps f (tryValidateVouch cfg voucher borrower stake token chainId) where
  out ctx s := by
    simp only [tryValidateVouch, yields_bind]
    refine yields_keeps f fun r t ht => ?_
    cases r with
    | error e => simpa using ht
    | ok u =>
      simp only [yields_bind]
      refine yields_keeps f fun n t' ht' => ?_
      exact yields_keeps f fun r t'' ht'' => ht''.trans (ht'.trans ht)

instance (cfg : VouchConfig) (voucher token : Address) (chainId : Option Nat) (borrower : Address) (stake : Int) :
    Keeps f (batchEntry cfg voucher token chainId borrower stake) where
  out ctx s := by
    simp only [batchEntry, yields_bind]
    refine yields_keeps f fun r t ht => ?_
    cases r with
    | error e => simpa using ht
    | ok u =>
      simp only [yields_steps]
      refine yields_keeps f fun r t' ht' => ?_
      cases r <;> simpa using ht'.trans ht

instance (cfg : VouchConfig) (voucher token : Address) (chainId : Option Nat) (results : List BatchVouchResult)
    (batch : List (Address × Int)) : Keeps f (batchEntries cfg voucher token chainId results batch) := by
  induction batch generalizing results with
  | nil => unfold batchEntries; infer_instance
  | cons entry rest ih => unfold batchEntries; infer_instance

instance (voucher : Address) (borrowers : List Address) (stakes : List Int) (token : Address) (chainId : Option Nat) :
    Keeps f (batchVouch voucher borrowers stakes token chainId) := by
  unfold batchVouch; infer_instance

instance (borrower : Address) : Keeps f (claimExpiredLoan borrower) := by
  unfold claimExpiredLoan; infer_instance

end Vouches

section Loans

variable [Apart f Access] [Apart f Vault] [Apart f LoanBook] [Apart f Terms]

instance (borrower : Address) (amount threshold : Int) (token : Address) :
    Keeps f (admitLoan borrower amount threshold token) := by
  unfold admitLoan; infer_instance

instance (loan : LoanRecord) : Keeps f (disburseLoan loan) := by
  unfold disburseLoan; infer_instance

instance (borrower : Address) (amount threshold : Int) (purpose : String) (token : Address) :
    Keeps f (requestLoan borrower amount threshold purpose token) := by
  unfold requestLoan; infer_instance

instance (borrower : Address) (payment : Int) (token : Address) : Keeps f (repayPartial borrower payment token) := by
  unfold repayPartial; infer_instance

instance (borrower : Address) (amount threshold : Int) (token : Address) :
    Keeps f (refinanceLoan borrower amount threshold token) := by
  unfold refinanceLoan; infer_instance

instance (borrower : Address) (amount : Int) (deadline : Nat) : Keeps f (issuePoolLoan borrower amount deadline) := by
  unfold issuePoolLoan; infer_instance

instance (deadline : Nat) (pool : List (Address × Int)) : Keeps f (issuePool deadline pool) := by
  induction pool with
  | nil => unfold issuePool; infer_instance
  | cons entry rest ih => unfold issuePool; infer_instance

instance (signers borrowers : List Address) (amounts : List Int) :
    Keeps f (createLoanPool signers borrowers amounts) := by
  unfold createLoanPool; infer_instance

end Loans

section Votes

variable [Apart f Access] [Apart f Ballots]

instance (voucher delegate : Address) : Keeps f (delegateVote voucher delegate) := by
  unfold delegateVote; infer_instance

instance (voucher : Address) : Keeps f (revokeVoteDelegation voucher) := by
  unfold revokeVoteDelegation; infer_instance

instance (voter borrower : Address) (approve : Bool) : Keeps f (voteSlash voter borrower approve) := by
  unfold voteSlash; infer_instance

end Votes

section Slashes

variable [Apart f Access] [Apart f Vault] [Apart f Slashing]

instance (borrower : Address) : Keeps f (applySlashRecovery borrower) where
  out ctx s := by
    simp only [applySlashRecovery, yields_steps]
    split
    · simp
    · exact Keeps.out _ _

instance (borrower : Address) : Keeps f (autoSlash borrower) := by
  unfold autoSlash; infer_instance

instance (signers : List Address) (slashId : Nat) (reason : String) :
    Keeps f (reverseSlash signers slashId reason) := by
  unfold reverseSlash; infer_instance

instance (signers : List Address) (borrower : Address) : Keeps f (releaseSlashEscrow signers borrower) := by
  unfold releaseSlashEscrow; infer_instance

instance (signers : List Address) (recipient : Address) : Keeps f (slashTreasury signers recipient) := by
  unfold slashTreasury; infer_instance

instance (signers : List Address) (recipient : Address) (amount : Int) :
    Keeps f (withdrawSlashTreasury signers recipient amount) := by
  unfold withdrawSlashTreasury; infer_instance

instance (borrower : Address) : Keeps f (appealSlash borrower) := by
  unfold appealSlash; infer_instance

instance (borrower : Address) : Keeps f (finalizeAppealInternal borrower) := by
  unfold finalizeAppealInternal; infer_instance

instance (borrower : Address) : Keeps f (finalizeAppeal borrower) := by
  unfold finalizeAppeal; infer_instance

instance (voter borrower : Address) (approve : Bool) : Keeps f (voteAppeal voter borrower approve) := by
  unfold voteAppeal; infer_instance

variable [Apart f LoanBook]

instance (signers : List Address) (borrower : Address) : Keeps f (slash signers borrower) := by
  unfold slash; infer_instance

variable [Apart f Terms]

instance (borrower : Address) (paid : Payment) (wasDefaulted : Bool) :
    Keeps f (settlePayment borrower paid wasDefaulted) := by
  unfold settlePayment closeLoan; infer_instance

instance (borrower : Address) (payment : Int) : Keeps f (repayLoan borrower payment) := by
  unfold repayLoan; infer_instance

instance (borrower : Address) (payment : Int) : Keeps f (repay borrower payment) := by
  unfold repay; infer_instance

end Slashes

/-! ## Entry points that keep the ballots -/

/-- The calls that touch no ballot: all but voting, delegating and executing a slash. -/
def Op.votes : Op → Bool
  | .voteSlash .. | .executeSlashVote _ | .executePendingSlash _ | .delegateVote .. | .revokeVoteDelegation _ => true
  | _ => false

theorem dispatch_keeps_ballots {op : Op} (h : op.votes = false) : Keeps Store.ballots (dispatch op) := by
  cases op
  case voteSlash | executeSlashVote | executePendingSlash | delegateVote | revokeVoteDelegation => cases h
  all_goals
    dsimp only [dispatch]
    infer_instance

end

end QuorumCredit
