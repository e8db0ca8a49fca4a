import QuorumCredit.Frames
/-!
# What a call does to the loan book

Every entry point changes the loan book in one of a few ways. `Effect` lists
them, with what the code has checked at that point, and `effect_of` shows that a
call that goes through has one of them. The theorems about loans are case
analyses over `Effect` and never look at the code again.
-/

open Host Function

namespace QuorumCredit

/-! ## Lazy marking -/

namespace LoanBook

/-- The book after marking a loan: its status set, and one default counted. -/
def markLoan (k : LoanBook) (id : Nat) (loan : LoanRecord) : LoanBook :=
  ((k.setLoan id { loan with status := .defaulted }).addDefault loan.borrower).incrementTotalDefaultCount

/-- The book after looking at one loan: marked as defaulted if it is overdue. -/
def markDefault (now : Nat) (k : LoanBook) (id : Nat) : LoanBook :=
  match k.loan id with
  | some loan =>
    if isLoanDefaulted now loan = true then k.markLoan id loan else k
  | none => k

/-- The book after looking at a list of loans. -/
def markAll (now : Nat) (k : LoanBook) (ids : List Nat) : LoanBook :=
  ids.foldl (markDefault now) k

end LoanBook

theorem isLoanDefaulted_active {now : Nat} {loan : LoanRecord} (h : isLoanDefaulted now loan = true) :
    loan.status = .active := by
  simp only [isLoanDefaulted, Bool.and_eq_true, decide_eq_true_eq] at h
  exact h.1

theorem checkAndMarkDefault_run {k : LoanBook} {id : Nat} {loan : LoanRecord} (hl : k.loan id = some loan)
    (ctx : Context) : ∃ b, checkAndMarkDefault id ctx k = .ok (b, k.markDefault ctx.now id) := by
  simp only [checkAndMarkDefault, run_bind, run_ask, run_look, hl, orFail, run_pure, LoanBook.markDefault]
  cases hd : isLoanDefaulted ctx.now loan with
  | false => exact ⟨false, by simp [run_pure]⟩
  | true =>
    have ha := isLoanDefaulted_active hd
    refine ⟨true, ?_⟩
    rw [if_neg (by simp), if_neg (by simp [ha])]
    rfl

theorem checkAndMarkDefault_missing {k : LoanBook} {id : Nat} (hl : k.loan id = none) (ctx : Context) :
    checkAndMarkDefault id ctx k = .error (.error .noActiveLoan) := by
  simp only [checkAndMarkDefault, run_bind, run_ask, run_look, hl, orFail, run_fail]

/-- Looking at a loan never fails for the caller that discards the result. -/
theorem attempt_check_run (id : Nat) (ctx : Context) (k : LoanBook) :
    ∃ r, attempt Failure.returned (checkAndMarkDefault id) ctx k = .ok (r, k.markDefault ctx.now id) ∧
      (∀ e, r = .error e → e = .noActiveLoan) := by
  unfold attempt
  cases hl : k.loan id with
  | some loan =>
    obtain ⟨b, hb⟩ := checkAndMarkDefault_run hl ctx
    exact ⟨.ok b, by rw [hb], by simp⟩
  | none =>
    refine ⟨.error .noActiveLoan, ?_, by simp⟩
    rw [checkAndMarkDefault_missing hl ctx]
    simp [Failure.returned, LoanBook.markDefault, hl]

/-- The whole loop marks what is overdue and never fails. -/
theorem checkLoans_run (ids : List Nat) (n : Nat) (ctx : Context) (k : LoanBook) :
    ∃ m, checkLoans n ids ctx k = .ok (m, k.markAll ctx.now ids) := by
  induction ids generalizing n k with
  | nil => exact ⟨n, rfl⟩
  | cons id ids ih =>
    obtain ⟨r, hr, he⟩ := attempt_check_run id ctx k
    simp only [checkLoans, run_bind, hr]
    match r with
    | .ok true => exact ih (n + 1) _
    | .ok false => exact ih n _
    | .error e =>
      obtain rfl := he e rfl
      exact ih n _

theorem checkAllDefaults_run (borrower : Address) (ctx : Context) (k : LoanBook) :
    ∃ m, checkAllDefaultsForBorrower borrower ctx k = .ok (m, k.markAll ctx.now (k.borrowerLoanIds borrower)) := by
  simp only [checkAllDefaultsForBorrower, run_bind, run_look]
  exact checkLoans_run _ 0 ctx k

/-- The ids `get_loan` looks at: the one its active loan's record carries. -/
def LoanBook.activeIds (k : LoanBook) (borrower : Address) : List Nat :=
  match k.getActiveLoanRecord borrower with
  | some loan => [loan.id]
  | none => []

theorem getLoan_run (borrower : Address) (ctx : Context) (k : LoanBook) :
    ∃ r, getLoan borrower ctx k = .ok (r, k.markAll ctx.now (k.activeIds borrower)) := by
  simp only [getLoan, run_bind, run_look, LoanBook.activeIds, id_eq]
  cases ha : k.getActiveLoanRecord borrower with
  | none => exact ⟨_, rfl⟩
  | some loan =>
    obtain ⟨r, hr, -⟩ := attempt_check_run loan.id ctx k
    simp only [run_bind, hr, run_look, id_eq]
    cases (k.markDefault ctx.now loan.id).getActiveLoanRecord borrower with
    | none => exact ⟨_, rfl⟩
    | some refreshed => exact ⟨_, rfl⟩

theorem getLoanById_run (id : Nat) (ctx : Context) (k : LoanBook) :
    ∃ r, getLoanById id ctx k = .ok (r, k.markAll ctx.now [id]) := by
  obtain ⟨r, hr, -⟩ := attempt_check_run id ctx k
  simp only [getLoanById, run_bind, hr, run_look]
  exact ⟨_, rfl⟩

/-! ## Effects -/

/-- The loans an entry of a batch of vouches looks at: those of a borrower the voucher may vouch for. -/
def LoanBook.entryIds (w : World) (voucher : Address) (k : LoanBook) (entry : Address × Int) : List Nat :=
  if 0 < entry.2 ∧ voucher ≠ entry.1 ∧ w.blacklisted entry.1 = false then k.borrowerLoanIds entry.1 else []

/-- The loans a call looks at on its way, and marks if they are overdue. -/
def Op.looksAt (w : World) (k : LoanBook) : Op → List Nat
  | .vouch _ borrower .. | .requestLoan borrower .. | .checkAllDefaults borrower => k.borrowerLoanIds borrower
  | .getLoan borrower => k.activeIds borrower
  | .getLoanById id => [id]
  | .batchVouch voucher borrowers stakes .. => (borrowers.zip stakes).flatMap (k.entryIds w voucher)
  | _ => []

/-- The calls that change no loan except by looking at it. -/
def Op.onlyLooks : Op → Bool
  | .vouch .. | .increaseStake .. | .decreaseStake .. | .withdrawVouch .. | .requestWithdrawal ..
  | .delegateVote .. | .revokeVoteDelegation .. | .voteSlash .. | .getLoan .. | .getLoanById .. | .checkAllDefaults ..
  | .initializeLoanCovenants .. | .batchVouch .. | .partialWithdraw .. | .transferVouch .. | .splitVouch ..
  | .rotateToNewBorrower .. | .reverseSlash .. | .releaseSlashEscrow .. | .slashTreasury .. | .withdrawSlashTreasury ..
  | .appealSlash .. | .voteAppeal .. | .finalizeAppeal .. => true
  | _ => false

/-- The borrower whose loan the call settles as defaulted. -/
def Op.settles : Op → Option Address
  | .slash _ b | .autoSlash b | .claimExpiredLoan b | .executeSlashVote b | .executePendingSlash b => some b
  | _ => none

/-- The borrower whose loan the call takes a payment on or settles. -/
def Op.resolves : Op → Option Address
  | .repay b _ => some b
  | op => op.settles

/-- The borrower whose approved slash the call executes. -/
def Op.executes : Op → Option Address
  | .executeSlashVote b | .executePendingSlash b => some b
  | _ => none

/-- The borrowers the call issues a loan to. -/
def Op.issuesTo : Op → List Address
  | .requestLoan borrower .. | .refinanceLoan borrower .. => [borrower]
  | .createLoanPool _ borrowers _ => borrowers
  | _ => []

/-- `new` is `old` after payments: the same loan on the same terms. -/
structure SameLoan (old new : LoanRecord) : Prop where
  id : new.id = old.id
  borrower : new.borrower = old.borrower
  amount : new.amount = old.amount
  totalYield : new.totalYield = old.totalYield
  deadline : new.deadline = old.deadline
  repaid : new.repaid = old.repaid
  defaulted : new.defaulted = old.defaulted

namespace LoanRecord

/-- `amount + total_yield + accrued_interest`. -/
def owed (loan : LoanRecord) : Int := loan.amount + loan.totalYield + loan.accruedInterest

/-- What is open on the loan with the interest up to `now`. -/
def outstandingAt (now : Nat) (loan : LoanRecord) : Int := (accrueInterest now loan).owed - loan.amountRepaid

/-- The interest and the milestone flags after a payment. -/
def milestonesAt (now : Nat) (payment : Int) (loan : LoanRecord) : Int × Nat :=
  applyMilestoneBonus (accrueInterest now loan) (loan.amountRepaid + payment) (loan.amount + loan.totalYield)

/-- What the milestones a payment reaches take off the interest. -/
def discountAt (now : Nat) (payment : Int) (loan : LoanRecord) : Int :=
  (accrueInterest now loan).accruedInterest - (loan.milestonesAt now payment).1

/-- The record after `repay` took a payment, before it is settled. -/
def paidAt (now : Nat) (payment : Int) (loan : LoanRecord) : LoanRecord :=
  { accrueInterest now loan with
    amountRepaid := loan.amountRepaid + payment
    accruedInterest := (loan.milestonesAt now payment).1
    milestoneBonusApplied := (loan.milestonesAt now payment).2 }

end LoanRecord

/-- What `repay` has checked of a payment it took, and the record it leaves. -/
structure Paid (now : Nat) (payment : Int) (old new : LoanRecord) : Prop where
  positive : 0 < payment
  within : payment ≤ old.outstandingAt now
  fits : FitsI128 (old.amount + old.totalYield) ∧ FitsI128 (old.paidAt now payment).owed
  record : new = { old.paidAt now payment with status := new.status, repaymentTimestamp := new.repaymentTimestamp }

/-- A loan just issued to `borrower` under the next id but `skipped` of them. -/
structure Fresh (k : LoanBook) (skipped : Nat) (borrower : Address) (loan : LoanRecord) : Prop where
  id : loan.id = k.loanCounter + skipped + 1
  borrower : loan.borrower = borrower
  amount : 0 ≤ loan.amount
  status : loan.status = .active
  unpaid : loan.amountRepaid = 0
  interestFree : loan.accruedInterest = 0
  flags : loan.repaid = false ∧ loan.defaulted = false

/-- The book with `n` more ids taken. -/
@[simps -fullyApplied]
def LoanBook.takeIds (k : LoanBook) (n : Nat) : LoanBook :=
  { k with loanCounter := k.loanCounter + n }

/-- The book after a pool in `token`: its loans issued one after the other. -/
inductive PoolEffect (token : Address) : LoanBook → List (Address × Int) → LoanBook → Prop
  | nil {k} : PoolEffect token k [] k
  | cons {k borrower amount loan rest k'} : Fresh k 0 borrower loan → loan.amount = amount →
      loan.tokenAddress = token → PoolEffect token ((k.takeIds 1).issue loan) rest k' →
      PoolEffect token k ((borrower, amount) :: rest) k'

/-- The book a call leaves, from the book it found, when it goes through in the world `w`. -/
inductive Effect (w : World) (k : LoanBook) : Op → LoanBook → Prop
  | looked {op} : op.onlyLooks = true → Effect w k op (k.markAll w.now (op.looksAt w k))
  | requested {borrower amount threshold purpose token loan} :
      (k.markAll w.now (k.borrowerLoanIds borrower)).hasActiveLoan borrower = false →
      Fresh (k.markAll w.now (k.borrowerLoanIds borrower)) 1 borrower loan → loan.amount = amount →
      loan.tokenAddress = token → Effect w k (.requestLoan borrower amount threshold purpose token)
        ((((k.markAll w.now (k.borrowerLoanIds borrower)).takeIds 2).openLoan loan).incrementTvlCounters amount)
  | paid {borrower payment old new} :
      k.loanToRepay borrower = some old → SameLoan old new → new.status = old.status → Paid w.now payment old new →
      payment < old.outstandingAt w.now → Effect w k (.repay borrower payment) (k.setLoan new.id new)
  | recovered {borrower payment old new} :
      k.loanToRepay borrower = some old → old.status = .defaulted → SameLoan old new → new.status = .repaid →
      Paid w.now payment old new → payment = old.outstandingAt w.now →
      Effect w k (.repay borrower payment) (k.setLoan new.id new)
  | closed {borrower payment old new} :
      k.loanToRepay borrower = some old → old.status ≠ .defaulted → SameLoan old new → new.status = .repaid →
      Paid w.now payment old new → payment = old.outstandingAt w.now → Effect w k (.repay borrower payment)
        ((((k.addRepayment borrower).setActiveLoan borrower none).decrementTvlCounters new.amount).setLoan new.id new)
  | paidPartial {borrower payment token old new} :
      k.getActiveLoanRecord borrower = some old → SameLoan old new → new.status = old.status → 0 < payment →
      new = { old with amountRepaid := old.amountRepaid + payment } →
      Effect w k (.repayPartial borrower payment token) (k.setLoan new.id new)
  | refinanced {borrower amount threshold token old new loan} :
      k.getActiveLoanRecord borrower = some old → SameLoan old new → new.status = .repaid →
      old.amountRepaid < new.amountRepaid ∧ new.amountRepaid = old.amount + old.totalYield →
      new.accruedInterest = old.accruedInterest → Fresh k 0 borrower loan → loan.amount = amount →
        loan.tokenAddress = token →
      Effect w k (.refinanceLoan borrower amount threshold token)
        ((((k.setLoan new.id new).setActiveLoan borrower none).takeIds 1).issue loan)
  | pooled {signers borrowers amounts k'} :
      borrowers.length = amounts.length → (∀ b ∈ borrowers, k.hasActiveLoan b = false) →
      PoolEffect w.config.token k (borrowers.zip amounts) k' →
      Effect w k (.createLoanPool signers borrowers amounts) k'
  | slashed {signers borrower loan} :
      k.getActiveLoanRecord borrower = some loan → loan.repaid = false ∧ loan.defaulted = false →
      Effect w k (.slash signers borrower) (k.settleSlashed borrower loan)
  | autoSlashed {borrower loan} :
      k.getActiveLoanRecord borrower = some loan → loan.repaid = false ∧ loan.defaulted = false →
      Effect w k (.autoSlash borrower) k
  | claimed {borrower loan} :
      k.getActiveLoanRecord borrower = some loan → loan.repaid = false ∧ loan.defaulted = false →
      loan.deadline ≤ w.now → Effect w k (.claimExpiredLoan borrower) (k.settleExpired borrower loan)
  | executedVote {borrower loan} :
      k.getActiveLoanRecord borrower = some loan → loan.status ≠ .defaulted →
      Effect w k (.executeSlashVote borrower) (k.settleDefaulted borrower loan)
  | executedPending {borrower loan} :
      k.getActiveLoanRecord borrower = some loan → loan.status ≠ .defaulted →
      Effect w k (.executePendingSlash borrower) (k.settleDefaulted borrower loan)

/-! ## One call at a time -/

section Calls

variable {ctx : Context} {s : Store}

theorem validateVouch_book (cfg : VouchConfig) (voucher borrower : Address) (stake : Int) (token : Address)
    (chainId : Option Nat) : Yields (validateVouch cfg voucher borrower stake token chainId) ctx s fun _ t =>
      t.book = s.book.markAll ctx.now (s.book.borrowerLoanIds borrower) := by
  unfold validateVouch
  simp only [yields_steps]
  refine yields_keeps Store.book fun _ s₁ h₁ => ?_
  refine (yields_zoom _ _ _ _).2 ((Yields.of_run (checkAllDefaults_run borrower ctx s₁.book)).mono ?_)
  rintro _ k rfl
  refine yields_keeps Store.book fun _ s₂ h₂ => ?_
  refine yields_keeps Store.book fun _ s₃ h₃ => ?_
  intro _ _
  rw [h₃, h₂, ← h₁]
  rfl

theorem vouch_book (voucher borrower : Address) (stake : Int) (token : Address) (chainId : Nat) :
    Yields (vouch voucher borrower stake token chainId) ctx s fun _ t =>
      t.book = s.book.markAll ctx.now (s.book.borrowerLoanIds borrower) := by
  unfold vouch doVouch
  simp only [yields_steps]
  refine yields_keeps Store.book fun _ s₁ h₁ => ?_
  refine yields_keeps Store.book fun _ s₂ h₂ => ?_
  refine yields_keeps Store.book fun _ s₃ h₃ => ?_
  refine yields_keeps Store.book fun _ s₄ h₄ => ?_
  refine yields_keeps Store.book fun _ s₅ h₅ => ?_
  refine (validateVouch_book _ _ _ _ _ _).mono fun vouches s₆ h₆ => ?_
  refine yields_keeps Store.book fun _ t ht => ?_
  rw [ht, h₆, h₅, h₄, h₃, h₂, h₁]

theorem LoanBook.markAll_borrowerLoanIds (now : Nat) (k : LoanBook) (ids : List Nat) :
    (k.markAll now ids).borrowerLoanIds = k.borrowerLoanIds := by
  induction ids generalizing k with
  | nil => rfl
  | cons id ids ih =>
    rw [LoanBook.markAll, List.foldl_cons, ← LoanBook.markAll, ih]
    unfold LoanBook.markDefault
    split
    · split <;> rfl
    · rfl

theorem LoanBook.entryIds_markAll (w : World) (voucher : Address) (now : Nat) (k : LoanBook) (ids : List Nat) :
    (k.markAll now ids).entryIds w voucher = k.entryIds w voucher := by
  funext entry
  simp only [LoanBook.entryIds, LoanBook.markAll_borrowerLoanIds]

/-- Whether an entry's borrower may be vouched for is settled before anything is written. -/
theorem attempt_validateBorrower_run (ctx : Context) (s : Store) (voucher borrower : Address) (stake : Int) :
    ∃ r, attempt Failure.returned (liftM (validateBorrower voucher borrower stake) : Contract Store Unit) ctx s =
        .ok (r, s) ∧
      (r.toBool = true ↔ 0 < stake ∧ voucher ≠ borrower ∧ ctx.blacklisted borrower = false) := by
  have hrun : ∀ x : Vouching,
      validateBorrower voucher borrower stake ctx x = .ok ((), x) ∧
        (0 < stake ∧ voucher ≠ borrower ∧ ctx.blacklisted borrower = false) ∨
      ∃ e, validateBorrower voucher borrower stake ctx x = .error (.error e) ∧
        ¬ (0 < stake ∧ voucher ≠ borrower ∧ ctx.blacklisted borrower = false) := by
    intro x
    simp only [validateBorrower, requirePositiveAmount, run_bind, run_ask, run_require]
    by_cases hstake : 0 < stake
    case neg => exact .inr ⟨.invalidAmount, by simp [hstake], fun h => hstake h.1⟩
    by_cases hself : voucher ≠ borrower
    case neg => exact .inr ⟨.selfVouchNotAllowed, by simp [hstake, hself], fun h => hself h.2.1⟩
    by_cases hblack : ctx.blacklisted borrower = false
    case neg => exact .inr ⟨.blacklisted, by simp [hstake, hself, hblack], fun h => hblack h.2.2⟩
    exact .inl ⟨by simp [hstake, hself, hblack], hstake, hself, hblack⟩
  rcases hrun s.vault.vouching with ⟨hok, hcond⟩ | ⟨e, herr, hcond⟩
  · refine ⟨.ok (), attempt_ok ?_, fun _ => hcond, fun _ => rfl⟩
    exact zoom_of_ok (zoom_of_ok hok)
  · refine ⟨.error e, ?_, ?_⟩
    · exact attempt_error (zoom_of_error (zoom_of_error herr)) rfl
    · simp [Except.toBool, hcond]

theorem tryValidateVouch_book (cfg : VouchConfig) (voucher borrower : Address) (stake : Int) (token : Address)
    (chainId : Option Nat) : Yields (tryValidateVouch cfg voucher borrower stake token chainId) ctx s fun _ t =>
      t.book = s.book.markAll ctx.now (s.book.entryIds ctx.toWorld voucher (borrower, stake)) := by
  obtain ⟨r, hr, hiff⟩ := attempt_validateBorrower_run ctx s voucher borrower stake
  unfold tryValidateVouch
  rw [yields_bind]
  refine (Yields.of_run' hr).mono ?_
  rintro r s ⟨rfl, rfl⟩
  unfold LoanBook.entryIds
  cases r with
  | error e =>
    rw [if_neg (by intro h; cases hiff.2 h)]
    simp [LoanBook.markAll]
  | ok u =>
    rw [if_pos (hiff.1 rfl)]
    simp only [yields_bind]
    refine (yields_zoom _ _ _ _).2 ((Yields.of_run (checkAllDefaults_run borrower ctx s.book)).mono ?_)
    rintro _ k rfl
    exact yields_keeps Store.book fun _ t ht => ht

theorem batchEntry_book (cfg : VouchConfig) (voucher token : Address) (chainId : Option Nat) (borrower : Address)
    (stake : Int) : Yields (batchEntry cfg voucher token chainId borrower stake) ctx s fun _ t =>
      t.book = s.book.markAll ctx.now (s.book.entryIds ctx.toWorld voucher (borrower, stake)) := by
  unfold batchEntry
  rw [yields_bind]
  refine (tryValidateVouch_book cfg voucher borrower stake token chainId).mono fun r t ht => ?_
  cases r with
  | error e => simpa using ht
  | ok vouches =>
    simp only [yields_steps]
    refine yields_keeps Store.book fun r t' ht' => ?_
    cases r <;> simpa using ht'.trans ht

theorem batchEntries_book (cfg : VouchConfig) (voucher token : Address) (chainId : Option Nat)
    (results : List BatchVouchResult) (batch : List (Address × Int)) :
    Yields (batchEntries cfg voucher token chainId results batch) ctx s fun _ t =>
      t.book = s.book.markAll ctx.now (batch.flatMap (s.book.entryIds ctx.toWorld voucher)) := by
  induction batch generalizing results s with
  | nil => simp [batchEntries, LoanBook.markAll]
  | cons entry rest ih =>
    unfold batchEntries
    rw [yields_bind]
    refine (batchEntry_book cfg voucher token chainId entry.1 entry.2).mono fun result t ht => ?_
    refine (ih _).mono fun _ t' ht' => ?_
    rw [ht', ht, LoanBook.entryIds_markAll, List.flatMap_cons]
    simp only [LoanBook.markAll, List.foldl_append]

theorem batchVouch_book (voucher : Address) (borrowers : List Address) (stakes : List Int) (token : Address)
    (chainId : Option Nat) : Yields (batchVouch voucher borrowers stakes token chainId) ctx s fun _ t =>
      t.book = s.book.markAll ctx.now ((borrowers.zip stakes).flatMap (s.book.entryIds ctx.toWorld voucher)) := by
  unfold batchVouch
  simp only [yields_steps, yields_requireAuth, yields_requireAllowedToken]
  intro _
  refine yields_keeps Store.book fun _ s₁ h₁ => ?_
  intro _ _
  rw [← h₁]
  exact batchEntries_book _ voucher token chainId [] _

theorem admitLoan_book (borrower : Address) (amount threshold : Int) (token : Address) :
    Yields (admitLoan borrower amount threshold token) ctx s fun _ t =>
      t.book = s.book.markAll ctx.now (s.book.borrowerLoanIds borrower) ∧ t.book.hasActiveLoan borrower = false := by
  unfold admitLoan
  simp only [yields_steps]
  refine yields_keeps Store.book fun _ s₁ h₁ => ?_
  refine (yields_zoom _ _ _ _).2 ((Yields.of_run (checkAllDefaults_run borrower ctx s₁.book)).mono ?_)
  rintro _ k rfl hactive
  simp only [yields_requireAllowedToken]
  intro _ _
  refine yields_keeps Store.book fun _ t ht => ?_
  rw [ht]
  exact ⟨by rw [← h₁]; rfl, hactive⟩

/-- What `satI128` pays out after a fee is not negative, so neither was the principal. -/
theorem nonneg_of_disbursed {amount fee : Int} (hf : 0 ≤ fee) (h : 0 ≤ satI128 (amount - fee)) : 0 ≤ amount := by
  simp only [satI128, i128Min, i128Max] at h
  omega

theorem collectInsuranceFee_nonneg (amount : Int) (t : Terms) :
    Yields (collectInsuranceFee amount) ctx t fun fee _ => 0 ≤ fee := by
  simp only [collectInsuranceFee, yields_steps, yields_ite]
  exact ⟨fun _ => le_refl 0, fun _ => Int.natCast_nonneg _⟩

theorem disburseLoan_book (loan : LoanRecord) :
    Yields (disburseLoan loan) ctx s fun _ t =>
      0 ≤ loan.amount ∧ t.book = (s.book.openLoan loan).incrementTvlCounters loan.amount := by
  unfold disburseLoan
  simp only [yields_steps, yields_parts, yields_onBook, yields_pay]
  refine (collectInsuranceFee_nonneg _ _).mono fun fee terms hfee => ?_
  intro hpay _
  refine (yields_true _ _ _).mono fun _ _ _ => ?_
  exact ⟨nonneg_of_disbursed hfee hpay, rfl⟩

theorem requestLoan_effect (borrower : Address) (amount threshold : Int) (purpose : String) (token : Address) :
    Yields (requestLoan borrower amount threshold purpose token) ctx s fun _ t =>
      Effect ctx.toWorld s.book (.requestLoan borrower amount threshold purpose token) t.book := by
  unfold requestLoan
  simp only [yields_bind, yields_ask, yields_look, yields_u64]
  refine (admitLoan_book _ _ _ _).mono fun totalStake s₁ h₁ => ?_
  obtain ⟨hbook, hactive⟩ := h₁
  simp only [lift_eq_zoom, lift_self]
  refine (yields_zoom _ _ _ _).2 ((yields_nextLoanId _ _).2 fun _ => ?_)
  refine yields_keeps Store.book fun shares s₂ h₂ => ?_
  intro _
  refine (yields_zoom _ _ _ _).2 ((yields_nextLoanId _ _).2 fun _ => ?_)
  refine yields_keeps Store.book fun _ s₃ h₃ => ?_
  refine (disburseLoan_book _).mono fun _ t ht => ?_
  obtain ⟨hamount, ht⟩ := ht
  have hs₂ : s₂.book = (s.book.markAll ctx.now (s.book.borrowerLoanIds borrower)).takeIds 1 := by
    rw [h₂]
    exact congrArg (LoanBook.takeIds · 1) hbook
  have hs₃ : s₃.book = (s.book.markAll ctx.now (s.book.borrowerLoanIds borrower)).takeIds 2 := by
    rw [h₃]
    exact congrArg (LoanBook.takeIds · 1) hs₂
  rw [ht, hs₃]
  refine .requested ?_ ⟨?_, rfl, hamount, rfl, rfl, rfl, rfl, rfl⟩ rfl rfl
  · rw [← hbook]; exact hactive
  · exact congrArg (fun k : LoanBook => k.loanCounter + 1) hs₂

/-! ### Repayment -/

theorem accrueInterest_same (now : Nat) (loan : LoanRecord) :
    SameLoan loan (accrueInterest now loan) ∧ (accrueInterest now loan).status = loan.status := by
  simp only [accrueInterest]
  split
  · exact ⟨⟨rfl, rfl, rfl, rfl, rfl, rfl, rfl⟩, rfl⟩
  · exact ⟨⟨rfl, rfl, rfl, rfl, rfl, rfl, rfl⟩, rfl⟩

theorem accrueInterest_amountRepaid (now : Nat) (loan : LoanRecord) :
    (accrueInterest now loan).amountRepaid = loan.amountRepaid := by
  simp only [accrueInterest]
  split <;> rfl

theorem SameLoan.paidAt (now : Nat) (payment : Int) (loan : LoanRecord) :
    SameLoan loan (loan.paidAt now payment) ∧ (loan.paidAt now payment).status = loan.status := by
  obtain ⟨⟨h₁, h₂, h₃, h₄, h₅, h₆, h₇⟩, h₈⟩ := accrueInterest_same now loan
  exact ⟨⟨h₁, h₂, h₃, h₄, h₅, h₆, h₇⟩, h₈⟩

/-- A payment taken is at most what is open, and what was owed in total is what the
settlement compares with. -/
theorem applyPayment_spec (now : Nat) (loan : LoanRecord) (borrower : Address) (payment : Int) (b : Ledger)
    (hpos : 0 < payment) : Yields (applyPayment now loan borrower payment) ctx b fun paid _ =>
      paid.loan = loan.paidAt now payment ∧ paid.owed = (accrueInterest now loan).owed ∧
        Paid now payment loan paid.loan := by
  obtain ⟨hsame, -⟩ := accrueInterest_same now loan
  have hrepaid := accrueInterest_amountRepaid now loan
  have hsum : (accrueInterest now loan).amount + (accrueInterest now loan).totalYield = loan.amount +
      loan.totalYield := by
    rw [hsame.amount, hsame.totalYield]
  have hpaid : loan.paidAt now payment =
      { accrueInterest now loan with
        amountRepaid := (accrueInterest now loan).amountRepaid + payment
        accruedInterest := (loan.milestonesAt now payment).1
        milestoneBonusApplied := (loan.milestonesAt now payment).2 } := by
    rw [hrepaid]
    rfl
  have hmilestones : loan.milestonesAt now payment = applyMilestoneBonus (accrueInterest now loan)
      ((accrueInterest now loan).amountRepaid + payment)
      ((accrueInterest now loan).amount + (accrueInterest now loan).totalYield) := by
    rw [hrepaid, hsum]
    rfl
  simp only [applyPayment, totalOwed, yields_steps, yields_i128, yields_collect]
  intro hfits _ hle _ _ _ _ hfinal
  rw [if_pos hfits, ← hmilestones] at hfinal ⊢
  have hwithin : payment ≤ loan.outstandingAt now := by
    simp only [LoanRecord.outstandingAt, LoanRecord.owed, ← hrepaid]
    split at hle <;> omega
  rw [← hpaid]
  exact ⟨rfl, rfl, hpos, hwithin, ⟨hsum ▸ hfits, hfinal⟩, rfl⟩

theorem closeLoan_book (loan : LoanRecord) (borrower : Address) (penalty : Int) :
    Yields (closeLoan loan borrower penalty) ctx s fun _ t =>
      t.book = ((s.book.addRepayment borrower).setActiveLoan borrower none).decrementTvlCounters loan.amount := by
  unfold closeLoan
  simp only [yields_bind, yields_look, lift_eq_zoom, lift_self]
  refine yields_keeps Store.book fun _ s₁ h₁ => ?_
  refine (yields_zoom _ _ _ _).2 ((yields_onBook _ _ _).2 ?_)
  refine yields_keeps Store.book fun _ t ht => ?_
  rw [ht, ← h₁]
  rfl

/-- The record that a completing payment stores. -/
def LoanRecord.settledAt (now : Nat) (loan : LoanRecord) : LoanRecord :=
  { loan with status := .repaid, repaymentTimestamp := some now }

/-- What a payment does to the book: settle the loan, or only store it. -/
theorem settlePayment_book (borrower : Address) (paid : Payment) (wasDefaulted : Bool) :
    Yields (settlePayment borrower paid wasDefaulted) ctx s fun _ t =>
      paid.loan.amountRepaid < paid.owed ∧ t.book = s.book.setLoan paid.loan.id paid.loan ∨
      paid.owed ≤ paid.loan.amountRepaid ∧
        (wasDefaulted = true ∧ t.book = s.book.setLoan paid.loan.id (paid.loan.settledAt ctx.now) ∨
          wasDefaulted = false ∧ t.book = (((s.book.addRepayment borrower).setActiveLoan borrower
            none).decrementTvlCounters paid.loan.amount).setLoan paid.loan.id (paid.loan.settledAt ctx.now)) := by
  unfold settlePayment
  simp only [yields_bind, yields_ask]
  refine yields_keeps Store.book fun penalty s₁ h₁ => ?_
  refine (yields_ite _ _ _ _ _ _).2 ⟨fun hcomplete => ?_, fun hopen => ?_⟩
  · cases wasDefaulted with
    | true =>
      simp only [if_true, lift_eq_zoom, lift_self, yields_bind]
      refine yields_keeps Store.book fun _ s₂ h₂ => ?_
      refine (yields_zoom _ _ _ _).2 ((yields_onBook _ _ _).2 (.inr ⟨hcomplete, .inl ⟨trivial, ?_⟩⟩))
      rw [← h₁, ← h₂]
      rfl
    | false =>
      simp only [Bool.false_eq_true, if_false, lift_eq_zoom, lift_self, yields_bind]
      refine (closeLoan_book paid.loan borrower penalty).mono fun _ s₂ h₂ => ?_
      refine (yields_zoom _ _ _ _).2 ((yields_onBook _ _ _).2 (.inr ⟨hcomplete, .inr ⟨trivial, ?_⟩⟩))
      rw [← h₁]
      exact congrArg (fun k => LoanBook.setLoan k _ _) h₂
  · simp only [lift_eq_zoom, lift_self]
    refine (yields_zoom _ _ _ _).2 ((yields_onBook _ _ _).2 (.inl ⟨not_le.1 hopen, ?_⟩))
    rw [← h₁]
    rfl

theorem SameLoan.trans {a b c : LoanRecord} (h : SameLoan a b) (h' : SameLoan b c) : SameLoan a c :=
  ⟨h'.id.trans h.id, h'.borrower.trans h.borrower, h'.amount.trans h.amount, h'.totalYield.trans h.totalYield,
    h'.deadline.trans h.deadline, h'.repaid.trans h.repaid, h'.defaulted.trans h.defaulted⟩

theorem SameLoan.settledAt (now : Nat) (loan : LoanRecord) : SameLoan loan (loan.settledAt now) :=
  ⟨rfl, rfl, rfl, rfl, rfl, rfl, rfl⟩

theorem Paid.settled {now : Nat} {payment : Int} {old new : LoanRecord} (h : Paid now payment old new) :
    Paid now payment old (new.settledAt now) := by
  refine ⟨h.positive, h.within, h.fits, ?_⟩
  conv_lhs => rw [h.record]
  rfl

theorem repayLoan_effect (borrower : Address) (payment : Int) :
    Yields (repayLoan borrower payment) ctx s fun _ t => Effect ctx.toWorld s.book (.repay borrower payment)
      t.book := by
  unfold repayLoan
  simp only [yields_bind, yields_ask, yields_look, yields_orFail, yields_require]
  refine yields_keeps Store.book fun _ s₁ h₁ => ?_
  refine yields_keeps Store.book fun _ s₂ h₂ => ?_
  refine yields_keeps Store.book fun _ s₃ h₃ => ?_
  refine yields_keeps Store.book fun _ s₄ h₄ => ?_
  intro old hold hpos
  have hbook : s₄.book = s.book := by rw [h₄, h₃, h₂, h₁]
  rw [hbook] at hold
  refine yields_keeps Store.book fun _ s₅ h₅ => ?_
  simp only [lift_eq_zoom, lift_self]
  refine (yields_zoom _ _ _ _).2 ((yields_zoom _ _ _ _).2 ((applyPayment_spec _ _ _ _ _ hpos).mono ?_))
  rintro paid b ⟨hrecord, howed, hpaid⟩
  refine yields_keeps Store.book fun _ s₆ h₆ => ?_
  refine (settlePayment_book borrower paid _).mono fun _ t ht => ?_
  have hbook' : s₆.book = s.book := h₆.trans (h₅.trans hbook)
  have hsame := SameLoan.paidAt ctx.now payment old
  rw [← hrecord] at hsame
  -- the sum repaid reaches what was owed exactly if the payment is all that was open
  have hrepaid : paid.loan.amountRepaid = old.amountRepaid + payment := by rw [hrecord]; rfl
  have hwithin := hpaid.within
  rw [hbook'] at ht
  rcases ht with ⟨hopen, ht⟩ | ⟨hcomplete, ⟨hd, ht⟩ | ⟨hd, ht⟩⟩
  · rw [ht]
    refine .paid hold hsame.1 hsame.2 hpaid ?_
    unfold LoanRecord.outstandingAt
    omega
  all_goals
    have hall : payment = old.outstandingAt ctx.now := by
      unfold LoanRecord.outstandingAt at hwithin ⊢
      omega
    have hsettled := hsame.1.trans (.settledAt ctx.now paid.loan)
    rw [ht]
  · exact .recovered hold (by simpa using hd) hsettled rfl hpaid.settled hall
  · exact .closed hold (by simpa using hd) hsettled rfl hpaid.settled hall

theorem repay_effect (borrower : Address) (payment : Int) :
    Yields (repay borrower payment) ctx s fun _ t => Effect ctx.toWorld s.book (.repay borrower payment) t.book := by
  unfold repay
  simp only [yields_bind]
  refine yields_keeps Store.book fun _ s₁ h₁ => ?_
  refine (repayLoan_effect borrower payment).mono fun _ s₂ h₂ => ?_
  refine yields_keeps Store.book fun _ t ht => ?_
  rw [ht, ← h₁]
  exact h₂

theorem repayPartial_effect (borrower : Address) (payment : Int) (token : Address) :
    Yields (repayPartial borrower payment token) ctx s fun _ t =>
      Effect ctx.toWorld s.book (.repayPartial borrower payment token) t.book := by
  unfold repayPartial
  simp only [yields_bind, yields_look, yields_orFail, yields_require, yields_requireAllowedToken, yields_i128]
  refine yields_keeps Store.book fun _ s₁ h₁ => ?_
  refine yields_keeps Store.book fun _ s₂ h₂ => ?_
  refine yields_keeps Store.book fun _ s₃ h₃ => ?_
  refine yields_keeps Store.book fun _ s₄ h₄ => ?_
  intro old hold hpos _
  have hbook : s₄.book = s.book := by rw [h₄, h₃, h₂, h₁]
  rw [hbook] at hold
  refine yields_keeps Store.book fun _ s₅ h₅ => ?_
  intro _
  simp only [lift_eq_zoom, lift_self]
  refine (yields_zoom _ _ _ _).2 ((yields_onBook _ _ _).2 ?_)
  let new : LoanRecord := { old with amountRepaid := old.amountRepaid + payment }
  have hsame : SameLoan old new := ⟨rfl, rfl, rfl, rfl, rfl, rfl, rfl⟩
  have hbook' : s₅.book = s.book := h₅.trans hbook
  exact hbook' ▸ .paidPartial (hbook' ▸ hold) hsame rfl hpos rfl

/-! ### Refinancing and pools -/

/-- `terms` is about `old`, which has something open. -/
theorem outstandingTerms_old (old : LoanRecord) (newAmount : Int) (t : Terms) :
    Yields (outstandingTerms old newAmount) ctx t fun terms _ =>
      terms.old = old ∧ terms.owed = old.amount + old.totalYield ∧ old.amountRepaid < terms.owed ∧
        0 ≤ newAmount := by
  simp only [outstandingTerms, yields_steps, yields_i128]
  intro _ _ _ hpos hle _
  exact ⟨trivial, trivial, by omega, by omega⟩

theorem requireEligible_old (borrower token : Address) (newAmount newThreshold : Int) (terms : RefinanceTerms)
    (x : Vouching) : Yields (requireEligible borrower token newAmount newThreshold terms) ctx x fun terms' _ =>
      terms'.old = terms.old ∧ terms'.owed = terms.owed := by
  simp only [requireEligible, yields_steps, yields_requireAllowedToken]
  intro _
  refine (yields_true _ _ _).mono fun _ _ _ => ?_
  refine (yields_true _ _ _).mono fun _ _ _ => ?_
  refine (yields_true _ _ _).mono fun _ _ _ _ => ?_
  exact ⟨trivial, trivial⟩

theorem replaceLoan_book (borrower token : Address) (newAmount : Int) (terms : RefinanceTerms) (k : LoanBook)
    (hpos : 0 ≤ newAmount) : Yields (replaceLoan borrower token newAmount terms) ctx k fun loan k' =>
      ∃ new, SameLoan terms.old new ∧ new.status = .repaid ∧ new.amountRepaid = terms.owed ∧
        new.accruedInterest = terms.old.accruedInterest ∧ Fresh k 0 borrower loan ∧ loan.amount = newAmount ∧
        loan.tokenAddress = token ∧ k' =
          (((k.setLoan new.id new).setActiveLoan borrower none).takeIds 1).issue loan := by
  simp only [replaceLoan, yields_steps, yields_onBook, yields_nextLoanId, yields_i128, yields_u64]
  intro _ _ _
  let new : LoanRecord :=
    { terms.old with amountRepaid := terms.owed, status := .repaid, repaymentTimestamp := some ctx.now }
  exact ⟨new, ⟨rfl, rfl, rfl, rfl, rfl, rfl, rfl⟩, rfl, rfl, rfl, ⟨rfl, rfl, hpos, rfl, rfl, rfl, rfl, rfl⟩, rfl,
    rfl, rfl⟩

theorem refinanceLoan_effect (borrower : Address) (newAmount newThreshold : Int) (newToken : Address) :
    Yields (refinanceLoan borrower newAmount newThreshold newToken) ctx s fun _ t =>
      Effect ctx.toWorld s.book (.refinanceLoan borrower newAmount newThreshold newToken) t.book := by
  unfold refinanceLoan
  simp only [yields_bind, yields_look, yields_orFail, lift_eq_zoom, lift_self]
  refine yields_keeps Store.book fun _ s₁ h₁ => ?_
  refine yields_keeps Store.book fun _ s₂ h₂ => ?_
  refine yields_keeps Store.book fun _ s₃ h₃ => ?_
  intro old hold
  have hbook : s₃.book = s.book := by rw [h₃, h₂, h₁]
  rw [hbook] at hold
  refine (yields_zoom _ _ _ _).2 ((outstandingTerms_old old newAmount _).mono fun terms t₄ hterms => ?_)
  obtain ⟨hold₄, howed₄, hopen, hpos⟩ := hterms
  refine yields_keeps Store.book fun _ s₅ h₅ => ?_
  refine (yields_zoom _ _ _ _).2 ((yields_zoom _ _ _ _).2 ?_)
  refine (requireEligible_old _ _ _ _ terms _).mono ?_
  rintro terms' x₆ ⟨hold₆, howed₆⟩
  refine (yields_zoom _ _ _ _).2 ((replaceLoan_book _ _ _ terms' _ hpos).mono fun loan k hk => ?_)
  obtain ⟨new, hsame, hrepaid, hsum, hinterest, hfresh, hamount, htoken, rfl⟩ := hk
  rw [hold₆, hold₄] at hsame hinterest
  rw [howed₆] at hsum
  refine yields_keeps Store.book fun _ s₇ h₇ => ?_
  refine yields_keeps Store.book fun _ t ht => ?_
  have hbook' : s₅.book = s.book := h₅.trans hbook
  rw [ht, h₇]
  exact hbook' ▸ .refinanced (hbook' ▸ hold) hsame hrepaid ⟨hsum ▸ hopen, hsum.trans howed₄⟩ hinterest hfresh hamount
    htoken

/-- The stakes of all records, in whatever token. -/
def stakeSum (vouches : List VouchRecord) : Int := (vouches.map (·.stake)).sum

/-- What `create_loan_pool` checks of one entry: no active loan, and the cap on all stakes. -/
def PoolEntryOk (w : World) (s : Store) (borrower : Address) (amount : Int) : Prop :=
  s.book.hasActiveLoan borrower = false ∧
    amount ≤ (stakeSum (s.vault.vouching.vouchesOf borrower) * w.config.maxLoanToStakeRatio).tdiv 100

theorem checkPoolEntry_spec (borrower : Address) (amount : Int) :
    Yields (checkPoolEntry borrower amount) ctx s fun _ t => t = s ∧ PoolEntryOk ctx.toWorld s borrower amount := by
  simp only [checkPoolEntry, yields_steps, yields_i128]
  intro _ hactive
  refine (yields_sumI128 _ _ _ _ _).mono ?_
  rintro total t ⟨htotal, rfl⟩ _ hcap
  rw [htotal, zero_add] at hcap
  exact ⟨rfl, hactive, hcap⟩

theorem checkPool_spec (total : Int) (pool : List (Address × Int)) :
    Yields (checkPool total pool) ctx s fun _ t => t = s ∧ ∀ e ∈ pool, PoolEntryOk ctx.toWorld s e.1 e.2 := by
  induction pool generalizing total with
  | nil => simp [checkPool]
  | cons entry rest ih =>
    simp only [checkPool, yields_bind, yields_i128]
    refine (checkPoolEntry_spec entry.1 entry.2).mono ?_
    rintro _ t ⟨rfl, hok⟩ _
    refine (ih _).mono ?_
    rintro _ u ⟨rfl, hrest⟩
    exact ⟨rfl, List.forall_mem_cons.2 ⟨hok, hrest⟩⟩

theorem issuePoolLoan_book (borrower : Address) (amount : Int) (deadline : Nat) :
    Yields (issuePoolLoan borrower amount deadline) ctx s fun _ t =>
      ∃ loan, Fresh s.book 0 borrower loan ∧ loan.amount = amount ∧ loan.tokenAddress = ctx.config.token ∧
        t.book = (s.book.takeIds 1).issue loan := by
  simp only [issuePoolLoan, yields_steps, yields_parts, yields_nextLoanId, yields_i128, yields_onBook, yields_pay]
  intro _ _ hpos _
  exact ⟨_, ⟨rfl, rfl, hpos, rfl, rfl, rfl, rfl, rfl⟩, rfl, rfl, rfl⟩

theorem issuePool_book (deadline : Nat) (pool : List (Address × Int)) :
    Yields (issuePool deadline pool) ctx s fun _ t => PoolEffect ctx.config.token s.book pool t.book := by
  induction pool generalizing s with
  | nil => simpa [issuePool] using PoolEffect.nil
  | cons entry rest ih =>
    simp only [issuePool, yields_bind]
    refine (issuePoolLoan_book entry.1 entry.2 deadline).mono fun _ s₁ h₁ => ?_
    obtain ⟨loan, hfresh, hamount, htoken, hbook⟩ := h₁
    refine ih.mono fun _ t ht => ?_
    exact .cons hfresh hamount htoken (hbook ▸ ht)

theorem createLoanPool_effect (signers borrowers : List Address) (amounts : List Int) :
    Yields (createLoanPool signers borrowers amounts) ctx s fun _ t =>
      Effect ctx.toWorld s.book (.createLoanPool signers borrowers amounts) t.book := by
  unfold createLoanPool
  simp only [yields_steps, yields_u64]
  refine (yields_requireAdminApproval _).mono ?_
  rintro _ _ rfl hlen _ _
  refine (checkPool_spec _ _).mono ?_
  rintro total _ ⟨rfl, hentries⟩ _
  refine (issuePool_book _ _).mono fun _ s₂ h₂ => ?_
  refine yields_keeps Store.book fun _ t ht => ?_
  rw [ht]
  refine .pooled hlen (fun b hb => ?_) h₂
  obtain ⟨i, hi, rfl⟩ := List.getElem_of_mem hb
  exact (hentries (borrowers[i], amounts[i]) (List.mem_iff_getElem.2 ⟨i, by simp; omega, by simp⟩)).1

/-! ### Slashing -/

theorem requireUnsettled_spec (book : LoanBook) (borrower : Address) (Q : LoanRecord → Store → Prop) :
    Yields (requireUnsettled book borrower) ctx s Q ↔
      ∀ loan, book.getActiveLoanRecord borrower = some loan → loan.repaid = false ∧ loan.defaulted = false →
        Q loan s := by
  simp [requireUnsettled]

theorem slash_effect (signers : List Address) (borrower : Address) :
    Yields (slash signers borrower) ctx s fun _ t => Effect ctx.toWorld s.book (.slash signers borrower) t.book := by
  unfold slash
  simp only [yields_bind, yields_look, requireUnsettled_spec]
  refine yields_keeps Store.book fun _ s₀ h₀ => ?_
  refine yields_keeps Store.book fun _ s₁ h₁ => ?_
  intro loan hloan hflags
  rw [h₁, h₀] at hloan
  refine yields_keeps Store.book fun _ s₂ h₂ => ?_
  refine yields_keeps Store.book fun _ s₃ h₃ => ?_
  simp only [lift_eq_zoom, lift_self, yields_ask, yields_require]
  refine (yields_zoom _ _ _ _).2 ((yields_onBook _ _ _).2 fun _ => ?_)
  refine yields_keeps Store.book fun _ t ht => ?_
  have hbook : s₃.book = s.book := by rw [h₃, h₂, h₁, h₀]
  rw [ht]
  exact hbook ▸ .slashed (hbook ▸ hloan) hflags

/-- `auto_slash` stores nothing in the book. -/
theorem autoSlash_effect (borrower : Address) :
    Yields (autoSlash borrower) ctx s fun _ t => Effect ctx.toWorld s.book (.autoSlash borrower) t.book := by
  unfold autoSlash
  simp only [yields_steps]
  intro loan hloan hrepaid hdefaulted _
  refine yields_keeps Store.book fun _ s₁ h₁ => ?_
  refine yields_keeps Store.book fun _ s₂ h₂ => ?_
  refine yields_keeps Store.book fun _ t ht => ?_
  rw [ht, h₂, h₁]
  exact fun _ => .autoSlashed hloan ⟨hrepaid, hdefaulted⟩

theorem claimExpiredLoan_effect (borrower : Address) :
    Yields (claimExpiredLoan borrower) ctx s fun _ t =>
      Effect ctx.toWorld s.book (.claimExpiredLoan borrower) t.book := by
  unfold claimExpiredLoan
  simp only [yields_bind, yields_ask, yields_look, requireUnsettled_spec, yields_require, yields_requireAuth]
  intro _ loan hloan hflags hlate
  refine yields_keeps Store.book fun _ s₁ h₁ => ?_
  simp only [lift_eq_zoom, lift_self]
  refine (yields_zoom _ _ _ _).2 ((yields_onBook _ _ _).2 ?_)
  exact h₁ ▸ .claimed (h₁ ▸ hloan) hflags hlate

theorem executeSlash_book (borrower : Address) :
    Yields (executeSlash borrower) ctx s fun _ t =>
      ∃ loan, s.book.getActiveLoanRecord borrower = some loan ∧ loan.status ≠ .defaulted ∧
        t.book = s.book.settleDefaulted borrower loan := by
  unfold executeSlash
  simp only [yields_bind, yields_ask, yields_look, yields_orFail, yields_require]
  refine yields_keeps Store.book fun _ s₁ h₁ => ?_
  intro loan hloan hstatus
  rw [h₁] at hloan
  refine yields_keeps Store.book fun _ s₂ h₂ => ?_
  refine yields_keeps Store.book fun _ s₃ h₃ => ?_
  simp only [lift_eq_zoom, lift_self]
  refine (yields_zoom _ _ _ _).2 ((yields_onBook _ _ _).2 ?_)
  refine yields_keeps Store.book fun _ s₄ h₄ => ?_
  refine yields_keeps Store.book fun _ t ht => ?_
  refine ⟨loan, hloan, hstatus, ?_⟩
  rw [ht, h₄, ← h₁, ← h₂, ← h₃]
  rfl

theorem executeSlashVote_effect (borrower : Address) :
    Yields (executeSlashVote borrower) ctx s fun _ t =>
      Effect ctx.toWorld s.book (.executeSlashVote borrower) t.book := by
  unfold executeSlashVote
  simp only [yields_steps]
  refine yields_keeps Store.book fun _ s₁ h₁ => ?_
  intro vote _ _
  refine yields_keeps Store.book fun _ s₂ h₂ => ?_
  intro _
  refine yields_keeps Store.book fun _ s₃ h₃ => ?_
  refine (executeSlash_book borrower).mono ?_
  rintro _ t ⟨loan, hloan, hstatus, ht⟩
  rw [h₃, h₂, h₁] at hloan ht
  rw [ht]
  exact .executedVote hloan hstatus

theorem executePendingSlash_effect (borrower : Address) :
    Yields (executePendingSlash borrower) ctx s fun _ t =>
      Effect ctx.toWorld s.book (.executePendingSlash borrower) t.book := by
  unfold executePendingSlash
  simp only [yields_steps]
  refine yields_keeps Store.book fun _ s₁ h₁ => ?_
  intro pending _ _ _
  refine yields_keeps Store.book fun _ s₂ h₂ => ?_
  refine (executeSlash_book borrower).mono ?_
  rintro _ t ⟨loan, hloan, hstatus, ht⟩
  rw [h₂, h₁] at hloan ht
  rw [ht]
  exact .executedPending hloan hstatus

/-- A call that goes through has the effect listed for it. -/
theorem dispatch_effect (op : Op) :
    Yields (dispatch op) ctx s fun _ t => Effect ctx.toWorld s.book op t.book := by
  cases op with
  | vouch voucher borrower stake token chainId =>
    refine (vouch_book voucher borrower stake token chainId).mono fun _ t ht => ?_
    rw [ht]
    exact .looked rfl
  | batchVouch voucher borrowers stakes token chainId =>
    simp only [dispatch, discard, yields_steps]
    refine (batchVouch_book voucher borrowers stakes token chainId).mono fun _ t ht => ?_
    rw [ht]
    exact .looked rfl
  | requestLoan borrower amount threshold purpose token =>
    exact requestLoan_effect borrower amount threshold purpose token
  | repay borrower payment => exact repay_effect borrower payment
  | repayPartial borrower payment token => exact repayPartial_effect borrower payment token
  | refinanceLoan borrower amount threshold token => exact refinanceLoan_effect borrower amount threshold token
  | createLoanPool signers borrowers amounts =>
    simpa [dispatch, discard] using createLoanPool_effect signers borrowers amounts
  | slash signers borrower => exact slash_effect signers borrower
  | autoSlash borrower => exact autoSlash_effect borrower
  | claimExpiredLoan borrower => exact claimExpiredLoan_effect borrower
  | executeSlashVote borrower => exact executeSlashVote_effect borrower
  | executePendingSlash borrower => exact executePendingSlash_effect borrower
  | getLoan borrower =>
    simp only [dispatch, discard, yields_steps, yields_zoom]
    refine (Yields.of_run (getLoan_run borrower ctx s.book)).mono ?_
    rintro _ k rfl
    exact .looked rfl
  | getLoanById id =>
    simp only [dispatch, discard, yields_steps, yields_zoom]
    refine (Yields.of_run (getLoanById_run id ctx s.book)).mono ?_
    rintro _ k rfl
    exact .looked rfl
  | checkAllDefaults borrower =>
    simp only [dispatch, discard, yields_steps, yields_zoom]
    refine (Yields.of_run (checkAllDefaults_run borrower ctx s.book)).mono ?_
    rintro _ k rfl
    exact .looked rfl
  | _ =>
    dsimp only [dispatch]
    refine yields_keeps Store.book fun _ t ht => ?_
    rw [ht]
    exact .looked rfl

end Calls

theorem effect_of {s : State} {c : Call} {t : Store} (h : exec c s = .ok t) :
    Effect s.world s.store.book c.op t.book :=
  yields_exec (dispatch_effect c.op) h

end QuorumCredit
