import QuorumCredit.Payments
import QuorumCredit.Guards
/-!
# When a repayment goes through

`repay` up to its settlement, as the exact conditions under which it takes a
payment: the guards, the covenants of the loan, and a payment no larger than what
is open. From these, when a loan in repayment has an amount left that `repay`
accepts.
-/

open Host Function

namespace QuorumCredit

/-! ## Guards that go through -/

section Guards

variable {ctx : Context}

@[simp] theorem goes_onBook (f : LoanBook → LoanBook) (k : LoanBook) (Q : Unit → LoanBook → Prop) :
    Goes (onBook f) ctx k Q ↔ Q () (f k) := by
  simp [onBook]

end Guards

variable {s : State} {loan : LoanRecord} {payment : Int} {borrower : Address} {signers : List Address}

/-- A call whose function goes through, goes through. -/
theorem exec_of_goes {c : Call} {Q : Unit → Store → Prop} (h : Goes (dispatch c.op) (s.context c) s.store Q) :
    ∃ t, exec c s = .ok t ∧ Q () t := by
  obtain ⟨u, t, hrun, hq⟩ := h
  exact ⟨t, by simp only [exec, hrun], hq⟩

theorem goes_of_exec {c : Call} {t : Store} (h : exec c s = .ok t) :
    Goes (dispatch c.op) (s.context c) s.store fun _ t' => t' = t := by
  unfold exec at h
  split at h
  case h_1 u t' hrun =>
    cases h
    exact .of_run hrun rfl
  case h_2 => cases h

/-! ## Covenants -/

/-- The covenants of loan `id` are set up, and still in their monitoring period. -/
def Terms.Monitored (t : Terms) (now id : Nat) : Prop :=
  ∃ cfg status, t.covenantConfig id = some cfg ∧ t.covenantStatus id = some status ∧
    now - status.lastCheckTimestamp < cfg.monitoringPeriodSecs

/-- The records the covenant check reads. -/
def Terms.covenants (t : Terms) : (Nat → Option LoanCovenantConfig) × (Nat → Option LoanCovenantStatus) :=
  (t.covenantConfig, t.covenantStatus)

def Store.covenants (s : Store) : (Nat → Option LoanCovenantConfig) × (Nat → Option LoanCovenantStatus) :=
  s.terms.covenants

theorem Terms.Monitored.congr {t t' : Terms} {now id : Nat} (h : t.Monitored now id)
    (ht : t'.covenants = t.covenants) : t'.Monitored now id := by
  obtain ⟨cfg, status, hcfg, hstatus, hperiod⟩ := h
  obtain ⟨hcfg', hstatus'⟩ := Prod.mk.inj ht
  exact ⟨cfg, status, hcfg' ▸ hcfg, hstatus' ▸ hstatus, hperiod⟩

/-- The covenant check goes through within the monitoring period, and only there. -/
theorem goes_monitor (id : Nat) (ctx : Context) (t : Terms) (Q : Terms → Prop) :
    Goes (monitorLoanCovenants id) ctx t (fun _ t' => Q t') ↔ t.Monitored ctx.now id ∧ Q t := by
  simp only [monitorLoanCovenants, goes_bind, goes_ask, goes_look, goes_orFail, goes_ite, goes_pure, goes_fail]
  constructor
  · rintro ⟨cfg, hcfg, status, hstatus, hin, hout⟩
    by_cases hperiod : ctx.now - status.lastCheckTimestamp < cfg.monitoringPeriodSecs
    · exact ⟨⟨cfg, status, hcfg, hstatus, hperiod⟩, hin hperiod⟩
    · exact (hout hperiod).elim
  · rintro ⟨⟨cfg, status, hcfg, hstatus, hperiod⟩, hq⟩
    exact ⟨cfg, hcfg, status, hstatus, fun _ => hq, fun hout => absurd hperiod hout⟩

instance : Apart Store.covenants Access where
instance : Apart Store.covenants LoanBook where
instance : Apart Store.covenants Vault where
instance : Apart Store.covenants Slashing where
instance : Inside Store.covenants Terms Terms.covenants where

instance (id : Nat) : Keeps Terms.covenants (monitorLoanCovenants id) := by
  unfold monitorLoanCovenants; infer_instance

instance (loan : LoanRecord) (payment : Int) : Keeps Terms.covenants (recordPayment loan payment) :=
  ⟨fun _ _ => by simp [recordPayment, Terms.covenants]⟩

instance (id : Nat) (entries : List YieldDistributionEntry) : Keeps Terms.covenants (setYieldDistribution id entries) :=
  ⟨fun _ _ => by simp [setYieldDistribution, Terms.covenants]⟩

/-! ## Taking a payment -/

section

set_option synthInstance.maxSize 200000

instance (borrower : Address) (paid : Payment) (wasDefaulted : Bool) :
    Keeps Store.covenants (settlePayment borrower paid wasDefaulted) := by
  unfold settlePayment closeLoan; infer_instance

instance (borrower : Address) (payment : Int) : Keeps Store.covenants (repay borrower payment) := by
  unfold repay repayLoan; infer_instance

end

/-- What `repay` checks of the caller before it looks at any loan. -/
def repayGuards (borrower : Address) : Contract Store Unit := do
  requireAuth borrower
  requireNotThawing
  checkRateLimit borrower
  checkPermission borrower (·.canRepay)

/-- `repay` up to the settlement: the payment, and whether the loan had defaulted. -/
def takePayment (now : Nat) (borrower : Address) (payment : Int) : Contract Store (Payment × Bool) := do
  let book ← look (·.book)
  let loan ← orFail (book.loanToRepay borrower) (.error .noActiveLoan)
  require (0 < payment) (.panic .invalidAmount)
  let _ ← monitorLoanCovenants loan.id
  let paid ← applyPayment now loan borrower payment
  recordPayment paid.loan payment
  return (paid, decide (loan.status = .defaulted))

/-- `repay` is its guards, the payment and the settlement. -/
theorem repayLoan_eq (borrower : Address) (payment : Int) :
    repayLoan borrower payment = (do
      let ctx ← ask
      repayGuards borrower
      let taken ← takePayment ctx.now borrower payment
      settlePayment borrower taken.1 taken.2) := by
  simp only [repayLoan, repayGuards, takePayment, bind_assoc, pure_bind]

/-- The lock and the guards. -/
def enterRepay (borrower : Address) : Contract Store Unit := do
  acquireLock
  repayGuards borrower

theorem goes_repay (borrower : Address) (payment : Int) (ctx : Context) (s : Store) (Q : Unit → Store → Prop) :
    Goes (repay borrower payment) ctx s Q ↔ Goes (enterRepay borrower) ctx s fun _ s₁ =>
      Goes (takePayment ctx.now borrower payment) ctx s₁ fun taken s₂ =>
        Goes (settlePayment borrower taken.1 taken.2) ctx s₂ fun _ s₃ => Goes (zoom releaseLock) ctx s₃ Q := by
  simp only [repay, repayLoan_eq, enterRepay, goes_bind, goes_ask, yields_parts]

instance {γ : Type} (f : Store → γ) [Apart f Access] (borrower : Address) : Keeps f (enterRepay borrower) := by
  unfold enterRepay repayGuards; infer_instance

/-- The call gets past the guards: the contract is not locked or paused, the
borrower signs, may repay, and has a call left in its rate limit. -/
def LetsIn (s : State) (signers : List Address) (borrower : Address) : Prop :=
  Goes (enterRepay borrower) ⟨s.world, signers⟩ s.store fun _ _ => True

/-- The call gets to its settlement: `repay` takes the payment. -/
def Accepts (s : State) (signers : List Address) (borrower : Address) (payment : Int) : Prop :=
  Goes (enterRepay borrower) ⟨s.world, signers⟩ s.store fun _ s₁ =>
    Goes (takePayment s.world.now borrower payment) ⟨s.world, signers⟩ s₁ fun _ _ => True

/-- A payment on the loan is taken if it is in range and the borrower holds it. -/
theorem goes_applyPayment {now : Nat} (hs : loan.Solid) (borrower : Address) (hpos : 0 < payment) (ctx : Context)
    (b : Ledger) :
    Goes (applyPayment now loan borrower payment) ctx b (fun _ _ => True) ↔
      (FitsI128 (loan.amount + loan.totalYield) ∧ FitsI128 (accrueInterest now loan).owed) ∧
        payment ≤ loan.outstandingAt now ∧ payment ≤ b.balance loan.tokenAddress borrower := by
  obtain ⟨hsame, -⟩ := accrueInterest_same now loan
  have hrepaid := accrueInterest_amountRepaid now loan
  have htoken : (accrueInterest now loan).tokenAddress = loan.tokenAddress := by
    simp only [accrueInterest]
    split <;> rfl
  have hsolid := hs.repaid
  obtain ⟨hmin, hmax⟩ := milestonesAt_bounds now payment hs.interest
  simp only [applyPayment, totalOwed, goes_bind, goes_i128, goes_require, goes_collect, goes_pure, LoanRecord.owed,
    LoanRecord.outstandingAt, LoanRecord.milestonesAt, hsame.amount, hsame.totalYield, hrepaid, htoken] at hmin hmax ⊢
  constructor
  · rintro ⟨hsum, howed, hle, ⟨-, hheld⟩, -⟩
    refine ⟨⟨hsum, howed⟩, ?_, hheld⟩
    split at hle <;> omega
  · rintro ⟨⟨hsum, howed⟩, hle, hheld⟩
    -- every sum lies between zero and what is owed
    have hbetween : ∀ x : Int, 0 ≤ x → x ≤ loan.amount + loan.totalYield + (accrueInterest now loan).accruedInterest →
        FitsI128 x := by
      unfold FitsI128 i128Min i128Max at howed ⊢
      omega
    have hfinal : FitsI128 (loan.amount + loan.totalYield +
        (applyMilestoneBonus (accrueInterest now loan) (loan.amountRepaid + payment)
          (loan.amount + loan.totalYield)).1) := by
      unfold FitsI128 i128Min i128Max at hsum howed ⊢
      omega
    rw [if_pos hsum, if_pos (hbetween _ (by omega) (by omega))]
    exact ⟨hsum, howed, by omega, ⟨by omega, hheld⟩, hbetween _ (by omega) (by omega), hsum, hfinal, trivial⟩

/-- What `repay` needs of the loan and the borrower to take a payment. -/
structure Payable (now : Nat) (x : Store) (loan : LoanRecord) (borrower : Address) (payment : Int) : Prop where
  positive : 0 < payment
  monitored : x.terms.Monitored now loan.id
  fits : FitsI128 (loan.amount + loan.totalYield) ∧ FitsI128 (accrueInterest now loan).owed
  within : payment ≤ loan.outstandingAt now
  funded : payment ≤ x.bank.balance loan.tokenAddress borrower

theorem Payable.congr {now : Nat} {x x' : Store} (h : Payable now x loan borrower payment)
    (hc : x'.covenants = x.covenants) (hb : x'.bank = x.bank) : Payable now x' loan borrower payment :=
  ⟨h.positive, h.monitored.congr hc, h.fits, h.within, hb ▸ h.funded⟩

theorem goes_takePayment {x : Store} (ho : x.book.loanToRepay borrower = some loan) (hs : loan.Solid) (payment : Int)
    (ctx : Context) :
    Goes (takePayment ctx.now borrower payment) ctx x (fun _ _ => True) ↔ Payable ctx.now x loan borrower payment := by
  simp only [takePayment, goes_bind, goes_look, goes_orFail, goes_require, yields_parts, goes_zoom, goes_monitor,
    recordPayment, goes_ask, goes_alter, goes_pure]
  constructor
  · rintro ⟨loan', hl, hpos, hmonitored, hpay⟩
    rw [ho] at hl
    cases hl
    obtain ⟨hfits, hwithin, hfunded⟩ := (goes_applyPayment hs borrower hpos _ _).1 hpay
    exact ⟨hpos, hmonitored, hfits, hwithin, hfunded⟩
  · intro h
    exact ⟨loan, ho, h.positive, h.monitored,
      (goes_applyPayment hs borrower h.positive _ _).2 ⟨h.fits, h.within, h.funded⟩⟩

/-- What the guards let in, with everything `repay` then looks at unchanged. -/
theorem LetsIn.keeps (h : LetsIn s signers borrower) :
    Goes (enterRepay borrower) ⟨s.world, signers⟩ s.store fun _ s₁ =>
      (s₁.book = s.store.book ∧ s₁.vault = s.store.vault) ∧ s₁.covenants = s.store.covenants := by
  have hkeeps := (((Keeps.out (f := Store.book) _ _).and (Keeps.out (f := Store.vault) _ _)).and
    (Keeps.out (f := Store.covenants) (x := enterRepay borrower) ⟨s.world, signers⟩ s.store))
  exact (Goes.and_yields h hkeeps).mono fun _ _ h => h.2

/-- The whole condition under which a payment is taken. -/
theorem accepts_iff (ho : s.store.book.loanToRepay borrower = some loan) (hs : loan.Solid) :
    Accepts s signers borrower payment ↔
      LetsIn s signers borrower ∧ Payable s.world.now s.store loan borrower payment := by
  have hframe : ∀ s₁ : Store, (s₁.book = s.store.book ∧ s₁.vault = s.store.vault) ∧ s₁.covenants = s.store.covenants →
      (Goes (takePayment s.world.now borrower payment) ⟨s.world, signers⟩ s₁ (fun _ _ => True) ↔
        Payable s.world.now s.store loan borrower payment) := by
    rintro s₁ ⟨⟨hbook, hvault⟩, hcovenants⟩
    have hbank : s₁.bank = s.store.bank := congrArg Vault.bank hvault
    refine (goes_takePayment (hbook ▸ ho) hs payment ⟨s.world, signers⟩).trans ?_
    exact ⟨fun h => h.congr hcovenants.symm hbank.symm, fun h => h.congr hcovenants hbank⟩
  constructor
  · intro h
    have hin : LetsIn s signers borrower := Goes.mono h fun _ _ _ => trivial
    obtain ⟨-, s₁, -, hpay, hkeeps⟩ := Goes.and_yields h fun a t hrun => by
      obtain ⟨_, _, hrun', hk⟩ := hin.keeps
      rw [hrun] at hrun'
      cases hrun'
      exact hk
    exact ⟨hin, (hframe s₁ hkeeps).1 hpay⟩
  · rintro ⟨hin, hpay⟩
    exact hin.keeps.mono fun _ s₁ hkeeps => (hframe s₁ hkeeps).2 hpay

/-! ## A payment that leaves the loan open -/

/-- The products of the prepayment penalty fit, if one is charged, on `repaid` in total. -/
def PenaltyFits (w : World) (loan : LoanRecord) (repaid : Int) : Prop :=
  w.config.prepaymentPenaltyBps = 0 ∨ loan.deadline ≤ w.now ∨
    FitsI128 (repaid * loan.amount) ∧ FitsI128 (loan.amount * w.config.prepaymentPenaltyBps)

theorem goes_prepaymentPenalty {σ : Type} {ctx : Context} {s : σ} {owed : Int} (wasDefaulted : Bool)
    (hamount : 0 ≤ loan.amount) (hrepaid : 0 ≤ loan.amountRepaid) (hle : loan.amountRepaid ≤ owed) (howed : 0 < owed)
    (hfits : PenaltyFits ctx.toWorld loan loan.amountRepaid) :
    Goes (prepaymentPenalty loan owed wasDefaulted) ctx s fun _ s' => s' = s := by
  simp only [prepaymentPenalty, goes_bind, goes_ask, goes_ite, goes_i128, goes_divI128, goes_pure]
  refine ⟨fun hpays => ?_, fun _ => trivial⟩
  obtain ⟨-, hearly, hcharged⟩ := hpays
  obtain ⟨hproduct, hpenalty⟩ := (hfits.resolve_left (by omega)).resolve_left (by omega)
  have hnonneg : 0 ≤ loan.amountRepaid * loan.amount := Int.mul_nonneg hrepaid hamount
  -- the principal repaid so far is a part of the amount
  have hquotient : 0 ≤ (loan.amountRepaid * loan.amount).tdiv owed ∧
      (loan.amountRepaid * loan.amount).tdiv owed ≤ loan.amount := by
    refine ⟨Int.tdiv_nonneg hnonneg howed.le, ?_⟩
    rw [Int.tdiv_eq_ediv_of_nonneg hnonneg]
    refine Int.ediv_le_of_le_mul howed ?_
    rw [Int.mul_comm]
    exact Int.mul_le_mul_of_nonneg_left hle hamount
  generalize (loan.amountRepaid * loan.amount).tdiv owed = repaid at hquotient
  have hbps : (0 : Int) ≤ ctx.config.prepaymentPenaltyBps := Int.natCast_nonneg _
  have hamountFits : loan.amount ≤ loan.amount * ctx.config.prepaymentPenaltyBps := by
    rw [← Int.mul_one loan.amount, Int.mul_assoc, Int.one_mul]
    exact Int.mul_le_mul_of_nonneg_left (by omega) hamount
  have hscaled : 0 ≤ (loan.amount - repaid) * ctx.config.prepaymentPenaltyBps := Int.mul_nonneg (by omega) hbps
  have hscaledLe : (loan.amount - repaid) * ctx.config.prepaymentPenaltyBps ≤
      loan.amount * ctx.config.prepaymentPenaltyBps := Int.mul_le_mul_of_nonneg_right (by omega) hbps
  refine ⟨hproduct, howed.ne', ?_, ?_, ?_, trivial⟩
  all_goals
    unfold FitsI128 i128Min i128Max at *
    omega

theorem yields_takePayment {x : Store} (ho : x.book.loanToRepay borrower = some loan) (payment : Int) (ctx : Context) :
    Yields (takePayment ctx.now borrower payment) ctx x fun taken _ =>
      taken.1.loan = loan.paidAt ctx.now payment ∧ taken.1.owed = (accrueInterest ctx.now loan).owed := by
  simp only [takePayment, yields_steps, yields_parts]
  intro loan' hl hpos
  rw [ho] at hl
  cases hl
  refine (yields_true _ _ _).mono fun _ _ _ => ?_
  refine (applyPayment_spec _ _ _ _ _ hpos).mono ?_
  rintro paid b ⟨hrecord, howed, -⟩
  exact (yields_true _ _ _).mono fun _ _ _ => ⟨hrecord, howed⟩

/-- A payment of less than what is open goes through once it is taken. -/
theorem repay_goes_of_open (ho : s.store.book.loanToRepay borrower = some loan) (hs : loan.Solid)
    (hin : LetsIn s signers borrower) (hp : Payable s.world.now s.store loan borrower payment)
    (hopen : payment < loan.outstandingAt s.world.now)
    (hfits : PenaltyFits s.world loan (loan.amountRepaid + payment)) :
    ∃ t, exec ⟨signers, .repay borrower payment⟩ s = .ok t := by
  have hpos := hp.positive
  have hrepaid := hs.repaid
  obtain ⟨hsame, -⟩ := SameLoan.paidAt s.world.now payment loan
  have hgoes : Goes (repay borrower payment) ⟨s.world, signers⟩ s.store fun _ _ => True := by
    rw [goes_repay]
    refine hin.keeps.mono ?_
    rintro _ s₁ ⟨⟨hbook, hvault⟩, hcovenants⟩
    have ho₁ : s₁.book.loanToRepay borrower = some loan := hbook ▸ ho
    have htake := (goes_takePayment ho₁ hs payment ⟨s.world, signers⟩).2
        (hp.congr hcovenants (congrArg Vault.bank hvault))
    refine (htake.and_yields (yields_takePayment ho₁ payment _)).mono ?_
    rintro taken s₂ ⟨-, hrecord, howed⟩
    dsimp only at hrecord howed
    have hsum : taken.1.loan.amountRepaid = loan.amountRepaid + payment := by
      rw [hrecord]
      rfl
    unfold LoanRecord.outstandingAt at hopen
    simp only [settlePayment, goes_bind, goes_ask]
    refine (@goes_prepaymentPenalty _ _ _ _ taken.1.owed taken.2 ?_ ?_ ?_ ?_ ?_).mono ?_
    · rw [hrecord, hsame.amount]
      exact hs.amount
    · omega
    · omega
    · omega
    · rw [hsum, hrecord]
      unfold PenaltyFits at hfits ⊢
      rwa [hsame.amount, hsame.deadline]
    · rintro _ _ rfl
      rw [if_neg (by omega)]
      simp only [yields_parts, goes_zoom, goes_onBook, releaseLock, goes_alter]
  obtain ⟨t, ht, -⟩ := exec_of_goes (c := ⟨signers, .repay borrower payment⟩) hgoes
  exact ⟨t, ht⟩

/-! ## After a payment -/

/-- Interest is accrued for whole days, so once a moment. -/
theorem accrueInterest_recent {now : Nat} (h : (now - loan.lastInterestCalc) / secsPerDay = 0) :
    accrueInterest now loan = loan := by
  simp only [accrueInterest, h, Nat.lt_irrefl, if_false]

theorem accrueInterest_lastCalc (now : Nat) (loan : LoanRecord) :
    (now - (accrueInterest now loan).lastInterestCalc) / secsPerDay = 0 := by
  by_cases hdays : 0 < (now - loan.lastInterestCalc) / secsPerDay
  · simp only [accrueInterest, hdays, if_true]
    unfold secsPerDay at hdays ⊢
    omega
  · simp only [accrueInterest, hdays, if_false]
    exact Nat.eq_zero_of_not_pos hdays

namespace Paid

variable {now : Nat} {payment : Int} {old new : LoanRecord}

/-- Right after a payment there is no interest to accrue. -/
theorem accrued (h : Paid now payment old new) : accrueInterest now new = new := by
  refine accrueInterest_recent ?_
  rw [h.record]
  exact accrueInterest_lastCalc now old

theorem outstandingAt (h : Paid now payment old new) :
    new.outstandingAt now = old.outstandingAt now - old.discountAt now payment - payment := by
  unfold LoanRecord.outstandingAt
  rw [h.accrued, h.owed, h.amountRepaid]
  omega

theorem tokenAddress (h : Paid now payment old new) : new.tokenAddress = old.tokenAddress := by
  rw [h.record]
  simp only [LoanRecord.paidAt, accrueInterest]
  split <;> rfl

end Paid

/-- The active loan is the one to repay. -/
theorem loanToRepay_of_active {k : LoanBook} {b : Address} (h : k.getActiveLoanRecord b = some loan) :
    k.loanToRepay b = some loan := by
  rw [LoanBook.loanToRepay, h]

/-- A call of `repay` that goes through took its payment. -/
theorem accepts_of_exec {b : Address} {t : Store} (h : exec ⟨signers, .repay b payment⟩ s = .ok t) :
    Accepts s signers b payment := by
  have hgoes : Goes (repay b payment) ⟨s.world, signers⟩ s.store fun _ _ => True :=
    (goes_of_exec h).mono fun _ _ _ => trivial
  exact ((goes_repay b payment _ _ _).1 hgoes).mono fun _ _ h => h.mono fun _ _ _ => trivial

/-- Right after a payment that leaves the loan open, the further payments taken
are those up to what is then open. -/
theorem accepts_after_payment {b : Address} {q : Int} {old new : LoanRecord} {t : Store}
    (ho : t.book.loanToRepay b = some new) (hs : new.Solid) (hp : Paid s.world.now payment old new)
    (hid : new.id = old.id) (hm : t.terms.Monitored s.world.now old.id) (hin : LetsIn ⟨s.world, t⟩ signers b) :
    Accepts ⟨s.world, t⟩ signers b q ↔ 0 < q ∧ q ≤ t.bank.balance old.tokenAddress b ∧
      q ≤ old.outstandingAt s.world.now - old.discountAt s.world.now payment - payment := by
  rw [accepts_iff (s := ⟨s.world, t⟩) ho hs, ← hp.outstandingAt, ← hp.tokenAddress]
  constructor
  · rintro ⟨-, h⟩
    exact ⟨h.positive, h.funded, h.within⟩
  · rintro ⟨hpos, hfunded, hwithin⟩
    refine ⟨hin, hpos, hid ▸ hm, ?_, hwithin, hfunded⟩
    have hfits := hp.fits
    have howed : new.owed = (old.paidAt s.world.now payment).owed := by
      rw [hp.record]
      rfl
    rw [hp.obligation.1, hp.obligation.2, hp.accrued, howed]
    exact hfits

/-- The borrower's loan after a payment that does not complete it. -/
structure StillOpen (now : Nat) (payment : Int) (b : Address) (old new : LoanRecord) (t : Store) : Prop where
  active : new.status = .active
  stored : t.book.loan old.id = some new
  toRepay : t.book.loanToRepay b = some new
  solid : new.Solid
  same : SameLoan old new
  paid : Paid now payment old new
  monitored : t.terms.Monitored now old.id

/-- A payment on an active loan settles it, or leaves it open for less. -/
theorem after_repay {b : Address} {t : Store} (hr : Reachable s) (ho : s.store.book.getActiveLoanRecord b = some loan)
    (hactive : loan.status = .active) (hd : exec ⟨signers, .repay b payment⟩ s = .ok t) :
    (payment < loan.outstandingAt s.world.now ∧ ∃ new, StillOpen s.world.now payment b loan new t) ∨
      payment = loan.outstandingAt s.world.now ∧ ∃ new, t.book.loan loan.id = some new ∧ new.status = .repaid := by
  obtain ⟨h, hr⟩ := hr
  obtain ⟨hptr, hl, -⟩ := hr.keyed.active_record ho
  have hsolid := hr.solid _ _ hl
  have hrepay := loanToRepay_of_active ho
  have hm := ((accepts_iff hrepay hsolid).1 (accepts_of_exec hd)).2.monitored
  have hcovenants : t.covenants = s.store.covenants :=
    yields_exec (c := ⟨signers, .repay b payment⟩) (Keeps.out (x := repay b payment) _ _) hd
  have heffect := effect_of hd
  generalize hbook : t.book = k' at heffect
  cases heffect with
  | looked honly => cases honly
  | recovered ho' hdefaulted _ _ _ _ =>
    rw [hrepay] at ho'
    cases ho'
    rw [hactive] at hdefaulted
    cases hdefaulted
  | closed ho' _ hs hst hp hall =>
    rw [hrepay] at ho'
    cases ho'
    refine .inr ⟨hall, _, ?_, hst⟩
    rw [hs.id, LoanBook.setLoan_loan, update_self]
  | @paid _ _ _ new ho' hs hst hp hopen =>
    rw [hrepay] at ho'
    cases ho'
    have hmove : RecordMove s.world s.store.book (.repay b payment) loan new := .paid hrepay hst hp hopen
    have hnew : t.book.getActiveLoanRecord b = some new := by
      simp only [hbook, LoanBook.getActiveLoanRecord, LoanBook.setLoan_activeLoan, hptr, LoanBook.setLoan_loan, hs.id,
        Option.bind_some, update_self]
    refine .inl ⟨hopen, new, hst.trans hactive, ?_, loanToRepay_of_active hnew, hmove.solid hsolid, hs, hp,
      hm.congr hcovenants⟩
    rw [hbook, hs.id, LoanBook.setLoan_loan, update_self]

/-- After a payment on an active loan, the loan is settled or a further payment
is taken, exactly if the payment was not between what the milestones left open
and what was open before it. Where more than one unit is left, the further
payment of one unit goes through. -/
theorem repayment_open_iff {s : State} {signers : List Address} {b : Address} {payment : Int} {loan : LoanRecord}
    {t : Store} (hr : Reachable s) (ho : s.store.book.getActiveLoanRecord b = some loan)
    (hactive : loan.status = .active) (hd : exec ⟨signers, .repay b payment⟩ s = .ok t)
    (hin : LetsIn ⟨s.world, t⟩ signers b) (hfunded : 0 < t.bank.balance loan.tokenAddress b) :
    ((∃ new, t.book.loan loan.id = some new ∧ new.status = .repaid) ∨
        (∃ q, 0 < q ∧ Accepts ⟨s.world, t⟩ signers b q) ↔
      ¬ (loan.outstandingAt s.world.now - loan.discountAt s.world.now payment ≤ payment ∧
        payment < loan.outstandingAt s.world.now)) ∧
    (payment + 1 < loan.outstandingAt s.world.now - loan.discountAt s.world.now payment →
      PenaltyFits s.world loan (loan.amountRepaid + payment + 1) →
        ∃ t', exec ⟨signers, .repay b 1⟩ ⟨s.world, t⟩ = .ok t') := by
  have hdiscount : 0 ≤ loan.discountAt s.world.now payment := by
    obtain ⟨h, hr⟩ := hr
    exact discountAt_nonneg _ _ (hr.solid _ _ (hr.keyed.active_record ho).2.1).interest
  rcases after_repay hr ho hactive hd with ⟨hopen, new, hnew⟩ | ⟨hall, hsettled⟩
  · have haccepts := fun q =>
      accepts_after_payment (q := q) hnew.toRepay hnew.solid hnew.paid hnew.same.id hnew.monitored hin
    refine ⟨⟨?_, fun hcond => ?_⟩, fun hmore hfits => ?_⟩
    · rintro (⟨new', hl', hst'⟩ | ⟨q, hpos, hq⟩) ⟨hle, -⟩
      · rw [hnew.stored] at hl'
        cases hl'
        rw [hnew.active] at hst'
        cases hst'
      · have hwithin := ((haccepts q).1 hq).2.2
        omega
    · exact .inr ⟨1, one_pos, (haccepts 1).2 ⟨one_pos, hfunded, by omega⟩⟩
    · have hone := (haccepts 1).2 ⟨one_pos, hfunded, by omega⟩
      have hpayable := ((accepts_iff hnew.toRepay hnew.solid).1 hone).2
      have houtstanding := hnew.paid.outstandingAt
      refine repay_goes_of_open hnew.toRepay hnew.solid hin hpayable (by dsimp only; omega) ?_
      unfold PenaltyFits at hfits ⊢
      rwa [hnew.same.amount, hnew.same.deadline, hnew.paid.amountRepaid]
  · refine ⟨⟨fun _ h => by omega, fun _ => .inl hsettled⟩, fun hmore _ => by omega⟩

/-- Ten days into the loan. -/
def loanAtDayTen : List Act := requestedLoan ++ [.wait 864000]

/-- A payment of a fifth, ten days into the loan. -/
theorem repayment_open_iff_fifth :
    let s := start.play loanAtDayTen
    let t := (s.after ⟨[10], .repay 10 100000⟩).store
    ∃ loan, s.store.book.getActiveLoanRecord 10 = some loan ∧
      (((∃ new, t.book.loan loan.id = some new ∧ new.status = .repaid) ∨
          (∃ q, 0 < q ∧ Accepts ⟨s.world, t⟩ [10] 10 q) ↔
        ¬ (loan.outstandingAt s.world.now - loan.discountAt s.world.now 100000 ≤ 100000 ∧
          100000 < loan.outstandingAt s.world.now)) ∧
      (100000 + 1 < loan.outstandingAt s.world.now - loan.discountAt s.world.now 100000 →
        PenaltyFits s.world loan (loan.amountRepaid + 100000 + 1) →
          ∃ t', exec ⟨[10], .repay 10 1⟩ ⟨s.world, t⟩ = .ok t')) := by
  intro s t
  have hactive : (s.store.book.getActiveLoanRecord 10).any (fun loan => loan.status = .active ∧
      loan.tokenAddress = 100) =
      true := by decide +kernel
  obtain ⟨loan, ho, hloan⟩ := (Option.any_eq_true _ _).1 hactive
  obtain ⟨hst, htoken⟩ := of_decide_eq_true hloan
  have hd : exec ⟨[10], .repay 10 100000⟩ s = .ok t := exec_after (by decide +kernel)
  have hin : LetsIn ⟨s.world, t⟩ [10] 10 := goes_of_toBool (by decide +kernel)
  have hfunded : 0 < t.bank.balance 100 10 := by decide +kernel
  exact ⟨loan, ho, repayment_open_iff (Reachable.script ..) ho hst hd hin (htoken ▸ hfunded)⟩

/-- A loan whose principal is repaid accrues no more interest. -/
theorem owed_accrueInterest (now : Nat) (hrepaid : loan.amount ≤ loan.amountRepaid)
    (hfits : FitsI128 loan.accruedInterest) : (accrueInterest now loan).owed = loan.owed := by
  have hprincipal : max (loan.amount - loan.amountRepaid) 0 = 0 := by omega
  simp only [accrueInterest, hprincipal]
  split
  · simp [LoanRecord.owed, calculateDailyCompoundInterest, hfits]
  · rfl

/-- The payment leaves 337 units of interest that the milestones took off: the
loan is not settled, and no payment is taken from then on, whoever signs it, at
whatever time and under whatever configuration. -/
theorem discounted_loan_stuck :
    let s := start.play loanAtDayTen
    ∃ loan t, Reachable s ∧ s.store.book.getActiveLoanRecord 10 = some loan ∧ loan.status = .active ∧
      exec ⟨[10], .repay 10 510500⟩ s = .ok t ∧ (t.book.loan loan.id).any (fun new => new.status = .active) = true ∧
      ∀ world access bank signers q, ¬ Accepts ⟨world, { t with access, vault := { t.vault with bank } }⟩
        signers 10 q := by
  intro s
  have hr : Reachable s := Reachable.script ..
  have hactive : (s.store.book.getActiveLoanRecord 10).any (fun loan => loan.status = .active ∧ loan.id = 2) =
      true := by
    decide +kernel
  obtain ⟨loan, ho, hloan⟩ := (Option.any_eq_true _ _).1 hactive
  obtain ⟨hst, hid⟩ := of_decide_eq_true hloan
  have hd : exec ⟨[10], .repay 10 510500⟩ s = .ok (s.after ⟨[10], .repay 10 510500⟩).store :=
    exec_after (by decide +kernel)
  have hstill : ((s.after ⟨[10], .repay 10 510500⟩).store.book.loan 2).any (fun new => new.status = .active) =
      true := by
    decide +kernel
  have hpaid : ((s.after ⟨[10], .repay 10 510500⟩).store.book.loanToRepay 10).any (fun new =>
      new.amount ≤ new.amountRepaid ∧ new.owed ≤ new.amountRepaid ∧ FitsI128 new.accruedInterest ∧ new.id = 2) =
        true := by
    decide +kernel
  generalize (s.after ⟨[10], .repay 10 510500⟩).store = t at hd hstill hpaid
  refine ⟨loan, t, hr, ho, hst, hd, hid ▸ hstill, fun world access bank signers q haccepts => ?_⟩
  obtain ⟨new, hnew, hcond⟩ := (Option.any_eq_true _ _).1 hpaid
  obtain ⟨hprincipal, hall, hfits, -⟩ := of_decide_eq_true hcond
  have hsolid : new.Solid := by
    obtain ⟨h, hr⟩ := hr
    have hr' := hr.step (.done hd)
    exact hr'.solid _ _ (hr'.keyed.loan_to_repay hnew).1
  have hp := ((accepts_iff (s := ⟨world, { t with access, vault := { t.vault with bank } }⟩) hnew hsolid).1 haccepts).2
  have hwithin := hp.within
  have hpos := hp.positive
  unfold LoanRecord.outstandingAt at hwithin
  rw [owed_accrueInterest _ hprincipal hfits] at hwithin
  omega

end QuorumCredit
