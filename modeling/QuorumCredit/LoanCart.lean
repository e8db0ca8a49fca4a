import QuorumCredit.AnyToken
import QuorumCredit.Repaying
/-!
# The loan cart

`submit_batch_loan_request` of `loan_cart.rs`: the items a borrower has staged are
requested as loans one after the other, and the errors of `request_loan` are
reported per item instead of being returned. What a request did before its error
then stays.
-/

open Host Function

namespace QuorumCredit

/-! ## Requests whose error may be caught -/

/-- The guards on who may request, one stage each. -/
def tryAdmitBorrower (borrower : Address) : Returning Store Unit := do
  (requireAuth borrower : Contract Store Unit)
  requireNotThawing
  checkRateLimit borrower
  (checkPermission borrower (·.canRequestLoan) : Contract Store Unit)
  registerBorrowerIfNeeded borrower

/-- The checks of a request after the borrower's defaults are marked. They write nothing. -/
def requireGrant (borrower : Address) (amount threshold : Int) (token : Address) : Contract Store Int := do
  let ctx ← ask
  let book ← look (·.book)
  require (book.hasActiveLoan borrower = false) (.error .activeLoanExists)
  requireAllowedToken token
  require (ctx.config.minLoanAmount ≤ amount) (.error .loanBelowMinAmount)
  requireCollateral borrower token amount threshold

/-- Stores the loan, pays it out less the insurance fee, and checks its covenants. -/
def tryDisburseLoan (loan : LoanRecord) : Returning Store Unit := do
  onBook (·.openLoan loan)
  let fee ← collectInsuranceFee loan.amount
  pay loan.tokenAddress loan.borrower (satI128 (loan.amount - fee))
  onBook (·.incrementTvlCounters loan.amount)
  let _ ← monitorLoanCovenants loan.id

/-- A request from its first write to the book on. -/
def tryOpenLoan (borrower : Address) (amount totalStake : Int) (loanPurpose : String) (token : Address) :
    Returning Store Unit := do
  let ctx ← (ask : Contract Store Context)
  let _ ← nextLoanId
  let book ← (look (·.book) : Contract Store LoanBook)
  let shares ← lockYield borrower token amount totalStake (book.repaymentCount borrower) (book.defaultCount borrower)
  let deadline ← (u64 .arithmetic (ctx.now + ctx.config.loanDuration) : Contract Store Nat)
  let loanId ← nextLoanId
  setYieldDistribution loanId shares.entries
  tryDisburseLoan (newLoan loanId borrower amount shares.total ctx.now deadline loanPurpose token)

/-- `request_loan`. -/
def tryRequestLoan (borrower : Address) (amount threshold : Int) (loanPurpose : String) (token : Address) :
    Returning Store Unit := do
  tryAdmitBorrower borrower
  let _ ← checkAllDefaultsForBorrower borrower
  let totalStake ← (requireGrant borrower amount threshold token : Contract Store Int)
  tryOpenLoan borrower amount totalStake loanPurpose token

theorem settle_tryAdmitBorrower (borrower : Address) :
    (tryAdmitBorrower borrower).settle .error = admitBorrower borrower := by
  simp only [tryAdmitBorrower, admitBorrower, Staged.settle_bind, Staged.lift_eq_stage,
    Staged.settle_stage returned_error, yields_parts]

theorem settle_tryDisburseLoan (loan : LoanRecord) : (tryDisburseLoan loan).settle .error = disburseLoan loan := by
  simp only [tryDisburseLoan, disburseLoan, Staged.settle_bind, Staged.settle_pure, Staged.lift_eq_stage,
    Staged.settle_stage returned_error, yields_parts]

/-- A caller that returns the error makes the request of `Loan`. -/
theorem settle_tryRequestLoan (borrower : Address) (amount threshold : Int) (loanPurpose : String) (token : Address) :
    (tryRequestLoan borrower amount threshold loanPurpose token).settle .error =
      requestLoan borrower amount threshold loanPurpose token := by
  simp only [tryRequestLoan, tryOpenLoan, requestLoan, admitLoan, requireGrant, settle_tryAdmitBorrower,
    settle_tryDisburseLoan, Staged.settle_bind, Staged.lift_eq_stage, Staged.settle_stage returned_error, yields_parts]
  funext ctx s
  simp only [bind_assoc, run_bind, run_ask]

/-! ## What a request leaves behind -/

section

variable {ctx : Context} {s : Store} {borrower token : Address} {amount threshold : Int}

/-- The guards on who may request let the borrower in. -/
def MayRequest (borrower : Address) (ctx : Context) (s : Store) : Prop :=
  ∃ t, admitBorrower borrower ctx s = .ok ((), t)

/-- The borrower has no active loan, and the token, the amount and the stake allow the loan. -/
structure Grantable (borrower token : Address) (amount threshold : Int) (ctx : Context) (k : LoanBook) (x : Vouching) :
    Prop where
  free : k.hasActiveLoan borrower = false
  allowed : token = ctx.config.token ∨ token ∈ ctx.config.allowedTokens
  enough : ctx.config.minLoanAmount ≤ amount
  covered : ∃ total, requireCollateral borrower token amount threshold ctx x = .ok (total, x)

/-- The overdue loans of the borrower are marked. -/
def LoanBook.overdueMarked (k : LoanBook) (now : Nat) (borrower : Address) : LoanBook :=
  k.markAll now (k.borrowerLoanIds borrower)

/-- The borrower's active loan is due at `now` or later. -/
def LoanBook.Running (k : LoanBook) (now : Nat) (borrower : Address) : Prop :=
  ∃ id loan, k.activeLoan borrower = some id ∧ k.loan id = some loan ∧ loan.status = .active ∧ now ≤ loan.deadline

/-- What opening the loan may come to: the ids run out, the covenants are not monitored, or the loan is open. -/
inductive Opening (borrower : Address) (ctx : Context) (s : Store) : Bool → Store → Prop
  | full : ¬ s.book.loanCounter < u64Max → Opening borrower ctx s false s
  | unnumbered {t} : s.book.loanCounter < u64Max → ¬ s.book.loanCounter + 1 < u64Max →
      t.book.loanCounter = s.book.loanCounter + 1 → Opening borrower ctx s false t
  | unmonitored {t} : s.book.loanCounter + 1 < u64Max → ¬ s.terms.Monitored ctx.now (s.book.loanCounter + 2) →
      t.book.loanCounter = s.book.loanCounter + 2 → Opening borrower ctx s false t
  | opened {t} : s.book.loanCounter + 1 < u64Max → s.terms.Monitored ctx.now (s.book.loanCounter + 2) →
      t.book.Running ctx.now borrower → Opening borrower ctx s true t

/-- What a request may come to, and what it has written by then to the loan book and the ledger. -/
inductive RequestOutcome (borrower token : Address) (amount threshold : Int) (ctx : Context) (s : Store) :
    Bool → Store → Prop
  | unadmitted {t} : ¬ MayRequest borrower ctx s → t.book = s.book → t.vault.bank = s.vault.bank →
      RequestOutcome borrower token amount threshold ctx s false t
  | ungranted {t} : MayRequest borrower ctx s →
      ¬ Grantable borrower token amount threshold ctx (s.book.overdueMarked ctx.now borrower) s.vault.vouching →
      t.book = s.book.overdueMarked ctx.now borrower → t.vault.bank = s.vault.bank →
      RequestOutcome borrower token amount threshold ctx s false t
  | granted {success u t} : MayRequest borrower ctx s →
      Grantable borrower token amount threshold ctx (s.book.overdueMarked ctx.now borrower) s.vault.vouching →
      u.book = s.book.overdueMarked ctx.now borrower → u.vault.bank = s.vault.bank → u.terms = s.terms →
      Opening borrower ctx u success t → RequestOutcome borrower token amount threshold ctx s success t

theorem tryAdmitBorrower_outcome (borrower : Address) (s : Store) :
    Yields (tryAdmitBorrower borrower).run ctx s fun r t =>
      (∃ a, t = { s with access := a }) ∧
        ((∃ e, r = .error e) ∧ ¬ MayRequest borrower ctx s ∨ r = .ok () ∧ MayRequest borrower ctx s) := by
  have hwrites : Yields (tryAdmitBorrower borrower).run ctx s fun _ t => ∃ a, t = { s with access := a } := by
    unfold tryAdmitBorrower
    simp only [Staged.lift_eq_stage, yields_parts, Staged.yields_stage_bind, Staged.yields_stage]
    refine ⟨(yields_requireAuth ..).2 fun _ => ?_, fun _ _ => ⟨s.access, rfl⟩⟩
    refine ⟨fun _ a _ => ?_, fun _ _ => ⟨s.access, rfl⟩⟩
    refine ⟨fun _ b _ => ?_, fun _ _ => ⟨a, rfl⟩⟩
    refine ⟨yields_keeps id fun _ t ht => ?_, fun _ _ => ⟨b, rfl⟩⟩
    rw [id, id] at ht
    rw [ht]
    exact ⟨fun _ c _ => ⟨c, rfl⟩, fun _ _ => ⟨b, rfl⟩⟩
  intro r t hrun
  refine ⟨hwrites r t hrun, ?_⟩
  cases r with
  | error e =>
    refine .inl ⟨⟨e, rfl⟩, ?_⟩
    rintro ⟨u, hadmitted⟩
    rw [← settle_tryAdmitBorrower, Staged.settle_of_error hrun] at hadmitted
    cases hadmitted
  | ok u =>
    refine .inr ⟨rfl, t, ?_⟩
    rw [← settle_tryAdmitBorrower, Staged.settle_of_ok hrun]

theorem requireGrant_reads (ctx : Context) (borrower token : Address) (amount threshold : Int) (s : Store) :
    Yields (requireGrant borrower amount threshold token) ctx s (fun _ t =>
        t = s ∧ Grantable borrower token amount threshold ctx s.book s.vault.vouching) ∧
      ∀ c, Staged.Refuses Failure.returned (requireGrant borrower amount threshold token) ctx s c →
        ¬ Grantable borrower token amount threshold ctx s.book s.vault.vouching := by
  unfold requireGrant
  refine ⟨?_, fun c hc => ?_⟩
  · simp only [yields_steps, yields_requireAllowedToken, yields_parts]
    intro hfree hallowed henough total x hrun
    obtain ⟨rfl, -⟩ := requireCollateral_spec borrower token amount threshold _ _ hrun
    exact ⟨rfl, hfree, hallowed, henough, total, hrun⟩
  · rintro ⟨hfree, hallowed, henough, total, hrun⟩
    have hgoes : Goes (requireGrant borrower amount threshold token) ctx s fun _ _ => True := by
      unfold requireGrant requireAllowedToken
      simp only [goes_bind, goes_ask, goes_look, goes_require, yields_parts, goes_zoom]
      exact ⟨hfree, hallowed, henough, .of_run hrun trivial⟩
    obtain ⟨_, _, hgrant, -⟩ := hgoes
    exact Staged.not_refuses_of_ok hgrant hc

end

/-! ### The stages after the first id -/

section

instance (v : VouchRecord) : Staged.Firm Failure.returned (weightedStake v) := by
  unfold weightedStake vouchReputationWeight; infer_instance

instance (borrower voucher : Address) (bps : Int) :
    Staged.Firm Failure.returned (getCachedYield borrower voucher bps) := by
  unfold getCachedYield
  refine .bind inferInstance fun ctx => .bind inferInstance fun entry => ?_
  cases entry <;> infer_instance

instance (borrower : Address) (v : VouchRecord) (repayments defaults : Nat) :
    Staged.Firm Failure.returned (vouchYieldBps borrower v repayments defaults) := by
  unfold vouchYieldBps vouchYieldBpsUncached
  refine .bind inferInstance fun ctx => .bind inferInstance fun cached => ?_
  cases cached <;> infer_instance

instance (borrower : Address) (bps : Int) : Staged.Firm Failure.returned (applyTierRewardsToYield borrower bps) := by
  unfold applyTierRewardsToYield
  refine .bind inferInstance fun ctx => ?_
  split <;> infer_instance

instance (borrower token : Address) (amount totalStake bonus : Int) (repayments defaults : Nat) (acc : YieldShares)
    (vouches : List VouchRecord) : Staged.Firm Failure.returned
      (yieldDistribution borrower token amount totalStake bonus repayments defaults acc vouches) := by
  induction vouches generalizing acc with
  | nil => unfold yieldDistribution; infer_instance
  | cons v vs ih => unfold yieldDistribution vouchYield; infer_instance

instance (borrower token : Address) (amount totalStake : Int) (repayments defaults : Nat) :
    Staged.Firm Failure.returned (lockYield borrower token amount totalStake repayments defaults) := by
  unfold lockYield; infer_instance

instance (amount : Int) : Staged.Firm Failure.returned (collectInsuranceFee amount) := by
  unfold collectInsuranceFee; infer_instance

instance (token dst : Address) (amount : Int) : Staged.Firm Failure.returned (pay token dst amount) := by
  unfold pay Bank.transfer; infer_instance

instance (f : LoanBook → LoanBook) : Staged.Firm Failure.returned (onBook f) := by
  unfold onBook; infer_instance

instance (id : Nat) (entries : List YieldDistributionEntry) :
    Staged.Firm Failure.returned (setYieldDistribution id entries) := by
  unfold setYieldDistribution; infer_instance

instance (amount : Int) : Keeps Terms.covenants (collectInsuranceFee amount) where
  out ctx t := by
    simp only [collectInsuranceFee, yields_steps, yields_ite]
    exact ⟨fun _ => trivial, fun _ => rfl⟩

theorem nextLoanId_refuses {ctx : Context} {k : LoanBook} {c : ContractError}
    (h : Staged.Refuses Failure.returned nextLoanId ctx k c) : ¬ k.loanCounter < u64Max := by
  intro hroom
  refine Staged.not_refuses_of_ok (a := k.loanCounter + 1) (t := { k with loanCounter := k.loanCounter + 1 }) ?_ h
  rw [nextLoanId, run_bind_ok (run_look _ ctx k), run_bind, run_require, if_pos hroom]
  rfl

theorem monitorLoanCovenants_outcome (id : Nat) (ctx : Context) (t : Terms) :
    Yields (monitorLoanCovenants id) ctx t (fun _ t' => t.Monitored ctx.now id ∧ t' = t) ∧
      ∀ c, Staged.Refuses Failure.returned (monitorLoanCovenants id) ctx t c → ¬ t.Monitored ctx.now id := by
  refine ⟨fun status t' hrun => ?_, fun c hc hmonitored => ?_⟩
  · have hgoes : Goes (monitorLoanCovenants id) ctx t fun _ u => u = t' := .of_run hrun rfl
    obtain ⟨hmonitored, rfl⟩ := (goes_monitor id ctx t (· = t')).1 hgoes
    exact ⟨hmonitored, rfl⟩
  · obtain ⟨status, t', hrun, -⟩ := (goes_monitor id ctx t fun _ => True).2 ⟨hmonitored, trivial⟩
    exact Staged.not_refuses_of_ok hrun hc

theorem tryDisburseLoan_outcome (loan : LoanRecord) (ctx : Context) (s : Store) :
    Yields (tryDisburseLoan loan).run ctx s fun r t =>
      t.book = (s.book.openLoan loan).incrementTvlCounters loan.amount ∧
        ((∃ e, r = .error e) ∧ ¬ s.terms.Monitored ctx.now loan.id ∨ r = .ok () ∧
          s.terms.Monitored ctx.now loan.id) := by
  unfold tryDisburseLoan
  simp only [Staged.lift_eq_stage, yields_parts]
  refine (Staged.yields_firm_bind ..).2 ?_
  simp only [yields_zoom, yields_onBook]
  refine (Staged.yields_firm_bind ..).2 ?_
  refine (yields_zoom _ _ _ _).2 ((Keeps.out (f := Terms.covenants) _ _).mono fun fee terms hfee => ?_)
  refine (Staged.yields_firm_bind ..).2 ?_
  simp only [yields_zoom, yields_pay]
  intro _ _
  refine (Staged.yields_firm_bind ..).2 ?_
  simp only [yields_zoom, yields_onBook]
  obtain ⟨hpassed, hrefused⟩ := monitorLoanCovenants_outcome loan.id ctx terms
  have hcongr : terms.Monitored ctx.now loan.id ↔ s.terms.Monitored ctx.now loan.id :=
    ⟨fun h => h.congr hfee.symm, fun h => h.congr hfee⟩
  refine (Staged.yields_stage_bind ..).2 ⟨(yields_zoom _ _ _ _).2 (hpassed.mono ?_), fun c hc =>
    ⟨rfl, .inl ⟨⟨c, rfl⟩, ?_⟩⟩⟩
  · rintro status _ ⟨hmonitored, rfl⟩
    exact (Staged.yields_pure ..).2 ⟨rfl, .inr ⟨rfl, hcongr.1 hmonitored⟩⟩
  · exact fun hmonitored => hrefused c (Staged.refuses_zoom _ |>.1 hc) (hcongr.2 hmonitored)

theorem markAll_loanCounter (now : Nat) (k : LoanBook) (ids : List Nat) :
    (k.markAll now ids).loanCounter = k.loanCounter :=
  LoanBook.markAll_frame (·.loanCounter) (fun _ _ _ _ => rfl) now k ids

theorem openLoan_loanCounter (k : LoanBook) (loan : LoanRecord) : (k.openLoan loan).loanCounter = k.loanCounter := by
  unfold LoanBook.openLoan LoanBook.recordBorrowerLoanId
  split <;> rfl

/-- A loan just issued runs. -/
theorem running_openLoan {k : LoanBook} {loan : LoanRecord} (hstatus : loan.status = .active) {now : Nat}
    (hdue : now ≤ loan.deadline) (amount : Int) :
    ((k.openLoan loan).incrementTvlCounters amount).Running now loan.borrower := by
  refine ⟨loan.id, loan, ?_, ?_, hstatus, hdue⟩
  · exact update_self ..
  · unfold LoanBook.openLoan LoanBook.recordBorrowerLoanId
    split
    · exact update_self ..
    · exact update_self ..

theorem tryOpenLoan_outcome (borrower token : Address) (amount totalStake : Int) (purpose : String) (ctx : Context)
    (s : Store) :
    Yields (tryOpenLoan borrower amount totalStake purpose token).run ctx s fun r t =>
      (∃ e, r = .error e) ∧ Opening borrower ctx s false t ∨ r = .ok () ∧ Opening borrower ctx s true t := by
  unfold tryOpenLoan
  simp only [Staged.lift_eq_stage, yields_parts]
  refine (Staged.yields_firm_bind ..).2 ((yields_ask _ _ _).2 ?_)
  refine (Staged.yields_stage_bind ..).2 ⟨(yields_zoom _ _ _ _).2 ((yields_nextLoanId _ _).2 fun hfirst => ?_),
    fun c hc => ?_⟩
  · refine (Staged.yields_firm_bind ..).2 ((yields_look _ _ _ _).2 ?_)
    refine (Staged.yields_firm_bind ..).2 ?_
    refine (yields_zoom _ _ _ _).2 ((yields_zoom _ _ _ _).2 fun shares x _ => ?_)
    refine (Staged.yields_firm_bind ..).2 ((yields_u64 _ _ _ _ _).2 fun _ => ?_)
    refine (Staged.yields_stage_bind ..).2 ⟨(yields_zoom _ _ _ _).2 ((yields_nextLoanId _ _).2 fun hsecond => ?_),
      fun c hc => ?_⟩
    · refine (Staged.yields_firm_bind ..).2 ?_
      refine (yields_zoom _ _ _ _).2 ((Keeps.out (f := Terms.covenants) _ _).mono fun _ terms hterms => ?_)
      refine (tryDisburseLoan_outcome _ _ _).mono fun r t ht => ?_
      obtain ⟨hbook, ⟨⟨e, rfl⟩, hno⟩ | ⟨rfl, hmonitored⟩⟩ := ht
      · refine .inl ⟨⟨e, rfl⟩, .unmonitored hsecond (fun h => hno (h.congr hterms)) ?_⟩
        rw [hbook]
        exact openLoan_loanCounter ..
      · refine .inr ⟨rfl, .opened hsecond (hmonitored.congr hterms.symm) ?_⟩
        rw [hbook]
        exact running_openLoan rfl (Nat.le_add_right _ _) _
    · exact .inl ⟨⟨c, rfl⟩, .unnumbered hfirst (nextLoanId_refuses ((Staged.refuses_zoom _).1 hc)) rfl⟩
  · exact .inl ⟨⟨c, rfl⟩, .full (nextLoanId_refuses ((Staged.refuses_zoom _).1 hc))⟩

theorem tryRequestLoan_outcome (borrower token : Address) (amount threshold : Int) (purpose : String) (ctx : Context)
    (s : Store) :
    Yields (tryRequestLoan borrower amount threshold purpose token).run ctx s fun r t =>
      (∃ e, r = .error e) ∧ RequestOutcome borrower token amount threshold ctx s false t ∨
        r = .ok () ∧ RequestOutcome borrower token amount threshold ctx s true t := by
  unfold tryRequestLoan
  simp only [Staged.lift_eq_stage, yields_parts]
  refine (Staged.yields_bind ..).2 ((tryAdmitBorrower_outcome borrower s).mono ?_)
  rintro r _ ⟨⟨a, rfl⟩, ⟨⟨e, rfl⟩, hno⟩ | ⟨rfl, hmay⟩⟩
  · exact .inl ⟨⟨e, rfl⟩, .unadmitted hno rfl rfl⟩
  refine (Staged.yields_firm_bind ..).2 ((yields_zoom _ _ _ _).2 ?_)
  refine (Yields.of_run (checkAllDefaults_run borrower ctx s.book)).mono ?_
  rintro count _ rfl
  let u : Store := { s with access := a, book := s.book.overdueMarked ctx.now borrower }
  obtain ⟨hgranted, hungranted⟩ := requireGrant_reads ctx borrower token amount threshold u
  refine (Staged.yields_stage_bind ..).2 ⟨hgranted.mono ?_, fun c hc => .inl ⟨⟨c, rfl⟩, ?_⟩⟩
  · rintro totalStake _ ⟨rfl, hgrantable⟩
    refine (tryOpenLoan_outcome _ _ _ _ _ _ _).mono fun r t ht => ?_
    rcases ht with ⟨hr, hopening⟩ | ⟨hr, hopening⟩
    · exact .inl ⟨hr, .granted (u := u) hmay hgrantable rfl rfl rfl hopening⟩
    · exact .inr ⟨hr, .granted (u := u) hmay hgrantable rfl rfl rfl hopening⟩
  · exact .ungranted hmay (hungranted c hc) rfl rfl

end

/-! ## The cart -/

/-- A staged request. -/
structure CartItem where
  amount : Int
  tenureSecs : Nat
  addedAt : Nat
deriving DecidableEq, Repr

structure LoanCart where
  borrower : Address
  items : List CartItem
  createdAt : Nat
  lastUpdated : Nat
  submitted : Bool
deriving DecidableEq, Repr

structure BatchLoanRequestResult where
  itemIndex : Nat
  requestedAmount : Int
  discountedAmount : Int
  discountApplied : Bool
  tenureSecs : Nat
  success : Bool
  errorCode : Option ContractError
deriving DecidableEq, Repr

structure CartAbandonmentStats where
  cartsCreated : Nat
  cartsSubmitted : Nat
  itemsAdded : Nat
  itemsSubmitted : Nat
  itemsRemoved : Nat
  itemsEdited : Nat
deriving DecidableEq, Repr

/-- The entries of `loan_cart.rs`. -/
structure Carts where
  cart : Address → Option LoanCart
  stats : CartAbandonmentStats

structure CartStore where
  store : Store
  carts : Carts

instance : Host.Part CartStore Store where
  get := CartStore.store
  set x s := { s with store := x }
instance : Host.Part CartStore Carts where
  get := CartStore.carts
  set x s := { s with carts := x }

def volumeDiscountThreshold : Nat := 3
def volumeDiscountBps : Int := 100

/-- `amount` in a cart of that size, with the discount. -/
def discounted (amount : Int) (cartSize : Nat) : Int :=
  if volumeDiscountThreshold ≤ cartSize then amount - (amount * volumeDiscountBps).tdiv 10000 else amount

def applyVolumeDiscount {σ : Type} (amount : Int) (cartSize : Nat) : Contract σ Int :=
  if volumeDiscountThreshold ≤ cartSize then do
    let product ← i128 .arithmetic (amount * volumeDiscountBps)
    i128 .arithmetic (amount - product.tdiv 10000)
  else return amount

/-- One item, with its place in the cart. A failed one is reported without the discount. -/
def submitItem (borrower : Address) (loanPurpose : String) (threshold : Int) (token : Address) (cartSize : Nat)
    (entry : CartItem × Nat) : Contract Store BatchLoanRequestResult := do
  let amount ← applyVolumeDiscount entry.1.amount cartSize
  match ← (tryRequestLoan borrower amount threshold loanPurpose token).run with
  | .ok _ =>
    return {
      itemIndex := entry.2, requestedAmount := entry.1.amount, discountedAmount := amount
      discountApplied := amount < entry.1.amount, tenureSecs := entry.1.tenureSecs, success := true, errorCode := none }
  | .error e =>
    return {
      itemIndex := entry.2, requestedAmount := entry.1.amount, discountedAmount := entry.1.amount
      discountApplied := false, tenureSecs := entry.1.tenureSecs, success := false, errorCode := some e }

def submitItems (borrower : Address) (loanPurpose : String) (threshold : Int) (token : Address)
    (items : List CartItem) :
    Contract Store (List BatchLoanRequestResult) :=
  each (submitItem borrower loanPurpose threshold token items.length) items.zipIdx

/-- The borrower's cart, an empty one if there is none. -/
def Carts.cartOf (c : Carts) (borrower : Address) (now : Nat) : LoanCart :=
  (c.cart borrower).getD { borrower, items := [], createdAt := now, lastUpdated := now, submitted := false }

def setCart (borrower : Address) (cart : LoanCart) : Contract Carts Unit :=
  alter fun c => { c with cart := update c.cart borrower (some cart) }

/-- The statistics after a submission, an empty one not counted. -/
def countSubmission (stats : CartAbandonmentStats) (cartSize successCount : Nat) : Contract Carts Unit := do
  let itemsSubmitted ← u32 .arithmetic (stats.itemsSubmitted + successCount)
  let cartsSubmitted ← u32 .arithmetic (stats.cartsSubmitted + if 0 < cartSize then 1 else 0)
  alter fun c => { c with stats := { stats with itemsSubmitted, cartsSubmitted } }

/-! ### Staging -/

/-- What is asked of a staged request. -/
def requireItem (amount : Int) (tenureSecs : Nat) : Contract Carts Unit := do
  require (0 < amount) (.assertion "cart: amount must be positive")
  require (0 < tenureSecs) (.assertion "cart: tenure must be positive")

def addToLoanCart (borrower : Address) (amount : Int) (tenureSecs : Nat) : Contract Carts LoanCart := do
  requireAuth borrower
  requireItem amount tenureSecs
  let ctx ← ask
  let carts ← look id
  let stats := carts.stats
  let cart := carts.cartOf borrower ctx.now
  let cartsCreated ← u32 .arithmetic (stats.cartsCreated + if carts.cart borrower = none then 1 else 0)
  let itemsAdded ← u32 .arithmetic (stats.itemsAdded + 1)
  alter fun c => { c with stats := { stats with cartsCreated, itemsAdded } }
  let item : CartItem := { amount, tenureSecs, addedAt := ctx.now }
  let staged := { cart with items := cart.items ++ [item], lastUpdated := ctx.now, submitted := false }
  setCart borrower staged
  return staged

/-- The borrower's cart, and the item at that place in it. -/
def loadCartWithValidIndex (borrower : Address) (itemIndex : Nat) : Contract Carts (LoanCart × CartItem) := do
  let cart ← orFail (← look (·.cart borrower)) (.panic .notFound)
  let item ← orFail cart.items[itemIndex]? (.panic .notFound)
  return (cart, item)

def removeCartItem (borrower : Address) (itemIndex : Nat) : Contract Carts LoanCart := do
  requireAuth borrower
  let (cart, _) ← loadCartWithValidIndex borrower itemIndex
  let ctx ← ask
  let stats ← look (·.stats)
  let itemsRemoved ← u32 .arithmetic (stats.itemsRemoved + 1)
  alter fun c => { c with stats := { stats with itemsRemoved } }
  let rest := { cart with items := cart.items.eraseIdx itemIndex, lastUpdated := ctx.now }
  setCart borrower rest
  return rest

def updateCartItem (borrower : Address) (itemIndex : Nat) (amount : Int) (tenureSecs : Nat) :
    Contract Carts LoanCart := do
  requireAuth borrower
  requireItem amount tenureSecs
  let (cart, existing) ← loadCartWithValidIndex borrower itemIndex
  let ctx ← ask
  let stats ← look (·.stats)
  let itemsEdited ← u32 .arithmetic (stats.itemsEdited + 1)
  alter fun c => { c with stats := { stats with itemsEdited } }
  let edited :=
    { cart with items := cart.items.set itemIndex { existing with amount, tenureSecs }, lastUpdated := ctx.now }
  setCart borrower edited
  return edited

def abandonLoanCart (borrower : Address) : Contract Carts Unit := do
  requireAuth borrower
  alter fun c => { c with cart := update c.cart borrower none }

/-! ### Submission -/

def submitBatchLoanRequest (borrower : Address) (loanPurpose : String) (threshold : Int) (token : Address) :
    Contract CartStore (List BatchLoanRequestResult) := do
  requireAuth borrower
  let ctx ← ask
  let carts ← look (·.carts)
  let cart := carts.cartOf borrower ctx.now
  let results ← submitItems borrower loanPurpose threshold token cart.items
  countSubmission carts.stats cart.items.length (results.countP (·.success))
  let submitted : LoanCart :=
    { borrower, items := [], createdAt := cart.createdAt, lastUpdated := ctx.now, submitted := true }
  setCart borrower submitted
  return results

section

variable {ctx : Context} {s t : Store} {borrower token : Address} {amount threshold : Int}

/-- A request that does not go through has no loan to mark; one that is granted gets a second id and
monitored covenants. -/
structure Carried (borrower token : Address) (amount threshold : Int) (ctx : Context) (s : Store) : Prop where
  unmarked : MayRequest borrower ctx s →
    ¬ (Grantable borrower token amount threshold ctx (s.book.overdueMarked ctx.now borrower) s.vault.vouching ∧
      s.book.loanCounter < u64Max) →
    s.book.overdueMarked ctx.now borrower = s.book
  opens : MayRequest borrower ctx s →
    Grantable borrower token amount threshold ctx (s.book.overdueMarked ctx.now borrower) s.vault.vouching →
    s.book.loanCounter < u64Max →
    s.book.loanCounter + 1 < u64Max ∧ s.terms.Monitored ctx.now (s.book.loanCounter + 2)

theorem overdueMarked_loanCounter (k : LoanBook) (now : Nat) (borrower : Address) :
    (k.overdueMarked now borrower).loanCounter = k.loanCounter :=
  markAll_loanCounter ..

theorem RequestOutcome.kept_iff (h : RequestOutcome borrower token amount threshold ctx s false t) :
    t.book = s.book ∧ t.vault.bank = s.vault.bank ↔ Carried borrower token amount threshold ctx s := by
  cases h with
  | unadmitted hno hbook hbank =>
    exact ⟨fun _ => ⟨fun hmay => absurd hmay hno, fun hmay => absurd hmay hno⟩, fun _ => ⟨hbook, hbank⟩⟩
  | ungranted hmay hno hbook hbank =>
    rw [hbook]
    constructor
    · exact fun h => ⟨fun _ _ => h.1, fun _ hgrantable => absurd hgrantable hno⟩
    · exact fun h => ⟨h.unmarked hmay fun hboth => hno hboth.1, hbank⟩
  | @granted _ u _ hmay hgrantable hbook hbank hterms hopening =>
    have hcounter : u.book.loanCounter = s.book.loanCounter := hbook ▸ overdueMarked_loanCounter ..
    cases hopening with
    | full hfull =>
      rw [hcounter] at hfull
      rw [hbook]
      constructor
      · exact fun h => ⟨fun _ _ => h.1, fun _ _ hroom => absurd hroom hfull⟩
      · exact fun h => ⟨h.unmarked hmay fun hboth => hfull hboth.2, hbank⟩
    | unnumbered hfirst hsecond hspent =>
      rw [hcounter] at hfirst hsecond hspent
      constructor
      · intro h
        rw [h.1] at hspent
        omega
      · exact fun h => absurd (h.opens hmay hgrantable hfirst).1 hsecond
    | unmonitored hsecond hno hspent =>
      rw [hcounter] at hsecond hspent
      rw [hcounter, hterms] at hno
      constructor
      · intro h
        rw [h.1] at hspent
        omega
      · exact fun h => absurd (h.opens hmay hgrantable (Nat.lt_of_succ_lt hsecond)).2 hno

theorem RequestOutcome.carried (h : RequestOutcome borrower token amount threshold ctx s true t) :
    Carried borrower token amount threshold ctx s ∧ t.book.Running ctx.now borrower := by
  cases h with
  | @granted _ u _ hmay hgrantable hbook hbank hterms hopening =>
    have hcounter : u.book.loanCounter = s.book.loanCounter := hbook ▸ overdueMarked_loanCounter ..
    cases hopening with
    | opened hsecond hmonitored hrunning =>
      rw [hcounter] at hsecond
      rw [hcounter, hterms] at hmonitored
      refine ⟨⟨fun _ hno => absurd ⟨hgrantable, Nat.lt_of_succ_lt hsecond⟩ hno, fun _ _ _ => ?_⟩, hrunning⟩
      exact ⟨hsecond, hmonitored⟩

/-- Looking at the loans does not mark one that is not yet due. -/
theorem LoanBook.Running.overdueMarked {k : LoanBook} {now : Nat} (h : k.Running now borrower) :
    (k.overdueMarked now borrower).Running now borrower := by
  obtain ⟨id, loan, hid, hloan, hstatus, hdue⟩ := h
  have hkept : markRecord now loan = loan := if_neg (by simp [isLoanDefaulted, Nat.not_lt.2 hdue])
  refine ⟨id, loan, ?_, ?_, hstatus, hdue⟩
  · rw [LoanBook.overdueMarked, LoanBook.markAll_activeLoan, hid]
  · rw [LoanBook.overdueMarked, LoanBook.markAll_loan, hloan]
    split
    · rw [Option.map_some, hkept]
    · rfl

theorem LoanBook.Running.active {k : LoanBook} {now : Nat} (h : k.Running now borrower) :
    k.hasActiveLoan borrower = true := by
  obtain ⟨id, loan, hid, hloan, hstatus, -⟩ := h
  refine LoanBook.hasActiveLoan_iff.2 ⟨loan, ?_, hstatus⟩
  rw [LoanBook.getActiveLoanRecord, hid]
  exact hloan

/-- A borrower with a loan that is not due is granted no other, and keeps it. -/
theorem RequestOutcome.excluded {success : Bool} (h : RequestOutcome borrower token amount threshold ctx s success t)
    (hrunning : s.book.Running ctx.now borrower) : success = false ∧ t.book.Running ctx.now borrower := by
  cases h with
  | unadmitted _ hbook _ => exact ⟨rfl, hbook ▸ hrunning⟩
  | ungranted _ _ hbook _ => exact ⟨rfl, hbook ▸ hrunning.overdueMarked⟩
  | granted _ hgrantable _ _ _ _ =>
    have hactive := hrunning.overdueMarked.active
    rw [hgrantable.free] at hactive
    cases hactive

theorem applyVolumeDiscount_discounts {σ : Type} (amount : Int) (cartSize : Nat) (x : σ) :
    Yields (applyVolumeDiscount amount cartSize) ctx x fun a y => a = discounted amount cartSize ∧ y = x := by
  unfold applyVolumeDiscount discounted
  split
  case isTrue =>
    simp only [yields_bind, yields_i128]
    exact fun _ _ => ⟨trivial, trivial⟩
  case isFalse => exact (yields_pure _ _ _ _).2 ⟨rfl, rfl⟩

theorem submitItem_outcome (borrower token : Address) (purpose : String) (threshold : Int) (cartSize : Nat)
    (entry : CartItem × Nat) (s : Store) :
    Yields (submitItem borrower purpose threshold token cartSize entry) ctx s fun r t =>
      RequestOutcome borrower token (discounted entry.1.amount cartSize) threshold ctx s r.success t := by
  unfold submitItem
  rw [yields_bind]
  refine (applyVolumeDiscount_discounts _ _ _).mono ?_
  rintro _ _ ⟨rfl, rfl⟩
  rw [yields_bind]
  refine (tryRequestLoan_outcome _ _ _ _ _ _ _).mono fun r t ht => ?_
  rcases ht with ⟨⟨e, rfl⟩, hout⟩ | ⟨rfl, hout⟩
  · exact (yields_pure _ _ _ _).2 hout
  · exact (yields_pure _ _ _ _).2 hout

theorem submitBatch_sequence (borrower token : Address) (purpose : String) (threshold : Int) (s : CartStore) :
    Yields (submitBatchLoanRequest borrower purpose threshold token) ctx s fun results t =>
      ∃ xs, Sequence (submitItem borrower purpose threshold token (s.carts.cartOf borrower ctx.now).items.length) ctx
          s.store xs t.store ∧
        xs.map (·.item) = (s.carts.cartOf borrower ctx.now).items.zipIdx ∧ xs.map (·.result) = results := by
  unfold submitBatchLoanRequest
  simp only [yields_steps, yields_requireAuth, yields_parts]
  intro _ results u hrun
  obtain ⟨xs, hxs, hitems, hresults⟩ := each_sequence hrun
  refine (yields_true _ _ _).mono fun _ c _ => ?_
  simp only [setCart, yields_alter]
  exact ⟨xs, hxs, hitems, hresults⟩

/-- Of one submission at most one item succeeds; and the failed items leave the loan
book and all balances as they were exactly when every item, where it is reached, is
carried: what fails finds nothing to mark, and what is granted can be completed. -/
theorem loan_cart_atomic {purpose : String} {s t : CartStore} {results : List BatchLoanRequestResult}
    (h : submitBatchLoanRequest borrower purpose threshold token ctx s = .ok (results, t)) :
    ∃ xs, Sequence (submitItem borrower purpose threshold token (s.carts.cartOf borrower ctx.now).items.length) ctx
        s.store xs t.store ∧
      xs.map (·.item) = (s.carts.cartOf borrower ctx.now).items.zipIdx ∧ xs.map (·.result) = results ∧
        results.countP (·.success) ≤ 1 ∧
          ((∀ x ∈ xs, x.result.success = false →
              x.after.book = x.before.book ∧ x.after.vault.bank = x.before.vault.bank) ↔
            ∀ x ∈ xs, Carried borrower token
              (discounted x.item.1.amount (s.carts.cartOf borrower ctx.now).items.length) threshold ctx x.before) := by
  obtain ⟨xs, hxs, hitems, hresults⟩ := submitBatch_sequence borrower token purpose threshold s _ _ h
  have hout : ∀ x ∈ xs, RequestOutcome borrower token
      (discounted x.item.1.amount (s.carts.cartOf borrower ctx.now).items.length) threshold ctx x.before
        x.result.success x.after := fun x hx => submitItem_outcome _ _ _ _ _ _ _ _ _ (hxs.ran x hx)
  refine ⟨xs, hxs, hitems, hresults, ?_, ?_⟩
  · rw [← hresults]
    refine hxs.once (I := fun s => s.book.Running ctx.now borrower) (·.success) (fun x hx hr => ?_)
      fun x hx => (hout x hx).excluded
    exact (hr ▸ hout x hx).carried.2
  · refine forall₂_congr fun x hx => ?_
    have hx := hout x hx
    cases hr : x.result.success with
    | false => exact ⟨fun h => (hr ▸ hx).kept_iff.1 (h rfl), fun h _ => (hr ▸ hx).kept_iff.2 h⟩
    | true => exact ⟨fun _ => (hr ▸ hx).carried.1, fun _ hfalse => Bool.noConfusion hfalse⟩

end

/-- Account 10 has staged `amounts` and is vouched for; nothing else has happened but `as`. -/
def stagedCart (as : List Act) (amounts : List Int) : CartStore :=
  { store := (start.play (.call [2] (.vouch 2 10 1000000 100 0) :: as)).store
    carts :=
      { cart := fun _ => some
          { borrower := 10, items := amounts.map fun a => { amount := a, tenureSecs := 2592000, addedAt := 1000000 }
            createdAt := 1000000, lastUpdated := 1000000, submitted := false }
        stats := ⟨1, 0, amounts.length, 0, 0, 0⟩ } }

/-- The first item leaves the borrower with a loan, so the others fail. -/
example : (result (submitBatchLoanRequest 10 "stock" 0 100) ⟨sampleWorld, [10]⟩
    (stagedCart [.call [1] (.initializeLoanCovenants 2 10000 10000 31536000)] [500000, 1, 400000])).map
      (·.map fun r => (r.success, r.discountedAmount, r.errorCode)) =
    some [(true, 495000, none), (false, 1, some .activeLoanExists), (false, 400000, some .activeLoanExists)] := by
  decide +kernel

theorem loan_cart_atomic_monitored :
    ∃ t xs, submitBatchLoanRequest 10 "stock" 0 100 ⟨sampleWorld, [10]⟩
        (stagedCart [.call [1] (.initializeLoanCovenants 2 10000 10000 31536000)] [500000]) =
          .ok ([⟨0, 500000, 500000, false, 2592000, true, none⟩], t) ∧
      Sequence (submitItem 10 "stock" 0 100 1) ⟨sampleWorld, [10]⟩
        (stagedCart [.call [1] (.initializeLoanCovenants 2 10000 10000 31536000)] [500000]).store xs t.store ∧
      ∀ x ∈ xs, Carried 10 100 (discounted x.item.1.amount 1) 0 ⟨sampleWorld, [10]⟩ x.before := by
  have hresult : result (submitBatchLoanRequest 10 "stock" 0 100) ⟨sampleWorld, [10]⟩
      (stagedCart [.call [1] (.initializeLoanCovenants 2 10000 10000 31536000)] [500000]) =
        some [⟨0, 500000, 500000, false, 2592000, true, none⟩] := by decide +kernel
  have hrun := run_of_result hresult
  obtain ⟨xs, hxs, -, hresults, -, hiff⟩ := loan_cart_atomic hrun
  refine ⟨_, xs, hrun, hxs, hiff.1 fun x hx hfailed => ?_⟩
  have hr : x.result ∈ xs.map (·.result) := List.mem_map_of_mem hx
  rw [hresults, List.mem_singleton] at hr
  rw [hr] at hfailed
  cases hfailed

/-- A loan whose covenants were not set up in advance is paid out, and reported as failed. -/
theorem failed_item_disbursed :
    ¬ ∀ ctx s borrower purpose threshold token results t,
      submitBatchLoanRequest borrower purpose threshold token ctx s = .ok (results, t) →
        ∃ xs, Sequence (submitItem borrower purpose threshold token (s.carts.cartOf borrower ctx.now).items.length) ctx
            s.store xs t.store ∧
          xs.map (·.item) = (s.carts.cartOf borrower ctx.now).items.zipIdx ∧ xs.map (·.result) = results ∧
            results.countP (·.success) ≤ 1 ∧
              ∀ x ∈ xs, x.result.success = false →
                x.after.book = x.before.book ∧ x.after.vault.bank = x.before.vault.bank := by
  intro hclaim
  have hresult : result (submitBatchLoanRequest 10 "stock" 0 100) ⟨sampleWorld, [10]⟩ (stagedCart [] [500000]) =
      some [⟨0, 500000, 500000, false, 2592000, false, some .loanNotFound⟩] := by decide +kernel
  obtain ⟨xs, hxs, hitems, hresults, -, hkept⟩ := hclaim _ _ _ _ _ _ _ _ (run_of_result hresult)
  obtain rfl := hxs.single hitems hresults
  have hbank := congrArg (·.balance 100 10) (hkept _ (List.mem_singleton_self _) rfl).2
  exact absurd hbank (by decide +kernel)

end QuorumCredit
