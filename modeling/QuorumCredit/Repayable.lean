import QuorumCredit.Payouts
/-!
# Which loans can be repaid

`repay` on an active loan, to its end: a payment goes through exactly if the
guards let the call in, the loan's covenants are set up and monitored, the figures
of the prepayment penalty fit and, where the payment completes the loan, the
contract can settle with the vouchers. Issuing a loan sets up no covenants.
-/

open Host Function

namespace QuorumCredit

/-! ## The penalty -/

/-- An early payment is charged a penalty on the principal it leaves open. -/
def PenaltyCharged (w : World) (loan : LoanRecord) : Prop :=
  w.now < loan.deadline ∧ 0 < w.config.prepaymentPenaltyBps

/-- The penalty once `repaid` of `owed` have been paid, before it is scaled down. -/
def penaltyProduct (w : World) (loan : LoanRecord) (owed repaid : Int) : Int :=
  (loan.amount - (repaid * loan.amount).tdiv owed) * w.config.prepaymentPenaltyBps

/-- The figures of the penalty fit, if one is charged. -/
def PenaltyFigures (w : World) (loan : LoanRecord) (owed repaid : Int) : Prop :=
  PenaltyCharged w loan → FitsI128 (repaid * loan.amount) ∧ FitsI128 (penaltyProduct w loan owed repaid)

/-- The principal that counts as repaid is part of the amount, and all of it in the end. -/
theorem repaidPrincipal_bounds {amount owed repaid : Int} (hamount : 0 ≤ amount) (hrepaid : 0 ≤ repaid)
    (hle : repaid ≤ owed) (howed : 0 < owed) :
    0 ≤ (repaid * amount).tdiv owed ∧ (repaid * amount).tdiv owed ≤ amount ∧
      (repaid * amount).tdiv owed ≤ repaid * amount := by
  have hnonneg : 0 ≤ repaid * amount := Int.mul_nonneg hrepaid hamount
  rw [Int.tdiv_eq_ediv_of_nonneg hnonneg]
  refine ⟨Int.ediv_nonneg hnonneg howed.le, Int.ediv_le_of_le_mul howed ?_, Int.ediv_le_self _ hnonneg⟩
  rw [Int.mul_comm]
  exact Int.mul_le_mul_of_nonneg_left hle hamount

theorem goes_prepaymentPenalty_iff {σ : Type} {ctx : Context} {s : σ} {loan : LoanRecord} {owed : Int}
    (hamount : 0 ≤ loan.amount) (hrepaid : 0 ≤ loan.amountRepaid) (hle : loan.amountRepaid ≤ owed) (howed : 0 < owed)
    (Q : Int → σ → Prop) :
    Goes (prepaymentPenalty loan owed false) ctx s Q ↔ PenaltyFigures ctx.toWorld loan owed loan.amountRepaid ∧
      Q (if ctx.now < loan.deadline ∧ 0 < ctx.config.prepaymentPenaltyBps then
        (penaltyProduct ctx.toWorld loan owed loan.amountRepaid).tdiv bpsDenominator else 0) s := by
  simp only [prepaymentPenalty, goes_bind, goes_ask, goes_ite, goes_i128, goes_divI128, goes_pure]
  obtain ⟨hpos, hpart, hprod⟩ := repaidPrincipal_bounds hamount hrepaid hle howed
  by_cases hcharged : ctx.now < loan.deadline ∧ 0 < ctx.config.prepaymentPenaltyBps
  · have hc : PenaltyCharged ctx.toWorld loan := hcharged
    simp only [hcharged, PenaltyFigures, hc, true_implies, not_true, false_implies, and_true, if_true, and_self,
      and_assoc]
    have hrest : penaltyProduct ctx.toWorld loan owed loan.amountRepaid =
        (loan.amount - (loan.amountRepaid * loan.amount).tdiv owed) * ctx.config.prepaymentPenaltyBps := rfl
    have hscaled : loan.amount - (loan.amountRepaid * loan.amount).tdiv owed ≤
        penaltyProduct ctx.toWorld loan owed loan.amountRepaid := by
      have hbps : (1 : Int) ≤ ctx.config.prepaymentPenaltyBps := by omega
      rw [hrest]
      exact le_mul_of_one_le_right (by omega) hbps
    rw [← hrest]
    constructor
    · rintro ⟨hproduct, -, -, -, hpenalty, hq⟩
      exact ⟨hproduct, hpenalty, hq⟩
    · rintro ⟨hproduct, hpenalty, hq⟩
      refine ⟨hproduct, howed.ne', ?_, ?_, hpenalty, hq⟩
      all_goals
        unfold FitsI128 i128Min i128Max at *
        omega
  · have hc : ¬ PenaltyCharged ctx.toWorld loan := hcharged
    simp only [hcharged, PenaltyFigures, hc, and_false, false_implies, not_false_iff, true_implies, true_and, if_false]

/-- The figures of every payment fit if those of the smallest and the largest one do. -/
theorem penaltyFigures_all {w : World} {loan : LoanRecord} {owed repaid : Int} (hamount : 0 ≤ loan.amount)
    (hrepaid : 0 ≤ repaid) (hopen : repaid < owed) :
    (∀ p, 0 < p → p ≤ owed - repaid → PenaltyFigures w loan owed (repaid + p)) ↔
      (PenaltyCharged w loan → FitsI128 (owed * loan.amount) ∧ FitsI128 (penaltyProduct w loan owed (repaid + 1))) := by
  constructor
  · intro h hcharged
    have hall := (h (owed - repaid) (by omega) le_rfl hcharged).1
    rw [show repaid + (owed - repaid) = owed by omega] at hall
    exact ⟨hall, (h 1 (by omega) (by omega) hcharged).2⟩
  · intro h p hpos hle hcharged
    obtain ⟨hall, hfirst⟩ := h hcharged
    have hbps : (0 : Int) ≤ w.config.prepaymentPenaltyBps := Int.natCast_nonneg _
    obtain ⟨hq, hqLe, -⟩ := repaidPrincipal_bounds hamount (show 0 ≤ repaid + p by omega)
      (show repaid + p ≤ owed by omega)
      (by omega)
    have hproduct : 0 ≤ (repaid + p) * loan.amount := Int.mul_nonneg (by omega) hamount
    have hproductLe : (repaid + p) * loan.amount ≤ owed * loan.amount :=
      Int.mul_le_mul_of_nonneg_right (by omega) hamount
    -- the more is repaid, the smaller the penalty
    have hmono : ((repaid + 1) * loan.amount).tdiv owed ≤ ((repaid + p) * loan.amount).tdiv owed := by
      rw [Int.tdiv_eq_ediv_of_nonneg (Int.mul_nonneg (by omega) hamount), Int.tdiv_eq_ediv_of_nonneg hproduct]
      exact Int.ediv_le_ediv (by omega) (Int.mul_le_mul_of_nonneg_right (by omega) hamount)
    have hpenalty : 0 ≤ penaltyProduct w loan owed (repaid + p) := Int.mul_nonneg (by omega) hbps
    have hpenaltyLe : penaltyProduct w loan owed (repaid + p) ≤ penaltyProduct w loan owed (repaid + 1) :=
      Int.mul_le_mul_of_nonneg_right (by omega) hbps
    unfold FitsI128 i128Min i128Max at *
    omega

/-! ## What a payment leaves to settle -/

/-- The yields locked in for each loan. -/
def Store.locked (s : Store) : Nat → List YieldDistributionEntry := s.terms.yieldDistribution

instance : Inside Store.locked Terms Terms.yieldDistribution where
instance : Apart Store.locked Access where
instance : Apart Store.locked LoanBook where
instance : Apart Store.locked Ballots where
instance : Apart Store.locked Vault where
instance : Apart Store.locked Slashing where

instance (id : Nat) : Keeps Terms.yieldDistribution (monitorLoanCovenants id) := by
  unfold monitorLoanCovenants; infer_instance

instance (loan : LoanRecord) (payment : Int) : Keeps Terms.yieldDistribution (recordPayment loan payment) :=
  ⟨fun _ _ => by simp [recordPayment]⟩

/-- The vault once the contract holds the payment. -/
def Vault.takes (x : Vault) (w : World) (loan : LoanRecord) (b : Address) (payment : Int) : Vault :=
  { x with bank := x.bank.move loan.tokenAddress b w.contract payment }

theorem accrueInterest_token (now : Nat) (loan : LoanRecord) :
    (accrueInterest now loan).tokenAddress = loan.tokenAddress := by
  simp only [accrueInterest]
  split <;> rfl

theorem applyPayment_bank (now : Nat) (loan : LoanRecord) (b : Address) (payment : Int) (ctx : Context)
    (bank : Ledger) :
    Yields (applyPayment now loan b payment) ctx bank fun _ bank' =>
      bank' = bank.move loan.tokenAddress b ctx.contract payment := by
  simp only [applyPayment, totalOwed, yields_steps, yields_i128, yields_collect, accrueInterest_token, implies_true]

/-- What `repay` has done when it comes to the settlement. -/
theorem takePayment_outcome {x : Store} {b : Address} {loan : LoanRecord} (ho : x.book.loanToRepay b = some loan)
    (payment : Int) (ctx : Context) :
    Yields (takePayment ctx.now b payment) ctx x fun taken y =>
      taken = (⟨loan.paidAt ctx.now payment, (accrueInterest ctx.now loan).owed⟩, decide (loan.status = .defaulted)) ∧
        y.vault = x.vault.takes ctx.toWorld loan b payment ∧ y.locked = x.locked := by
  simp only [takePayment, yields_bind, yields_look, yields_orFail, yields_require, lift_eq_zoom, lift_self, yields_pure]
  intro loan' hl hpos
  rw [ho] at hl
  cases hl
  refine yields_keeps₂ Store.vault Store.locked fun _ x₁ hvault hlocked => ?_
  refine (yields_zoom _ _ _ _).2 ((yields_zoom _ _ _ _).2 (((applyPayment_spec _ _ _ _ _ hpos).and
    (applyPayment_bank _ _ _ _ _ _)).mono ?_))
  rintro paid bank ⟨⟨hrecord, howed, -⟩, rfl⟩
  refine yields_keeps₂ Store.vault Store.locked fun _ x₂ hvault₂ hlocked₂ => ?_
  obtain ⟨record, owed⟩ := paid
  obtain rfl : record = loan.paidAt ctx.now payment := hrecord
  obtain rfl : owed = (accrueInterest ctx.now loan).owed := howed
  refine ⟨rfl, ?_, hlocked₂.trans hlocked⟩
  rw [hvault₂]
  change { x₁.vault with bank := x₁.vault.bank.move loan.tokenAddress b ctx.contract payment } = _
  rw [hvault]
  rfl

/-! ## To the end of the call -/

/-- `repay` is its guards, the payment, the settlement and the release of the lock. -/
theorem repay_eq (borrower : Address) (payment : Int) :
    repay borrower payment = (do
      let ctx ← ask
      enterRepay borrower
      let taken ← takePayment ctx.now borrower payment
      settlePayment borrower taken.1 taken.2
      zoom releaseLock) := by
  simp only [repay, repayLoan_eq, enterRepay, bind_assoc, lift_eq_zoom]
  rfl

/-- On the principal that a full payment leaves open there is no penalty. -/
theorem penaltyProduct_all {owed : Int} (howed : owed ≠ 0) (w : World) (loan : LoanRecord) :
    penaltyProduct w loan owed owed = 0 := by
  rw [penaltyProduct, Int.mul_tdiv_cancel_left _ howed, Int.sub_self, Int.zero_mul]

theorem goes_settlePayment {paid : Payment} (hamount : 0 ≤ paid.loan.amount) (hrepaid : 0 ≤ paid.loan.amountRepaid)
    (hle : paid.loan.amountRepaid ≤ paid.owed) (howed : 0 < paid.owed) (b : Address) (ctx : Context) (x : Store)
    (R : Vault → Prop) :
    Goes (settlePayment b paid false) ctx x (fun _ t => R t.vault) ↔
      PenaltyFigures ctx.toWorld paid.loan paid.owed paid.loan.amountRepaid ∧
      (paid.loan.amountRepaid < paid.owed → R x.vault) ∧
      (paid.loan.amountRepaid = paid.owed → x.vault.CanSettle ctx.toWorld paid.loan b (x.locked paid.loan.id) 0 ∧
        R (x.vault.settled ctx.toWorld paid.loan b (x.locked paid.loan.id) 0)) := by
  simp only [settlePayment, goes_bind, goes_ask, goes_prepaymentPenalty_iff hamount hrepaid hle howed, lift_eq_zoom]
  by_cases hall : paid.loan.amountRepaid = paid.owed
  · have hcloses : paid.owed ≤ paid.loan.amountRepaid := hall.ge
    have hnone : (if ctx.now < paid.loan.deadline ∧ 0 < ctx.config.prepaymentPenaltyBps then
        (penaltyProduct ctx.toWorld paid.loan paid.owed paid.loan.amountRepaid).tdiv bpsDenominator else 0) = 0 := by
      rw [hall, penaltyProduct_all howed.ne', Int.zero_tdiv, ite_self]
    rw [hnone, if_pos hcloses]
    simp only [Bool.false_eq_true, if_false, closeLoan, goes_bind, goes_look, goes_zoom, goes_settleVouches,
      goes_onBook, setYieldDistribution, goes_alter, yields_parts]
    constructor
    · rintro ⟨hfigures, hsettle, hr⟩
      exact ⟨hfigures, fun hlt => absurd hall hlt.ne, fun _ => ⟨hsettle, hr⟩⟩
    · rintro ⟨hfigures, -, hsettle⟩
      exact ⟨hfigures, (hsettle hall).1, (hsettle hall).2⟩
  · have hopen : ¬ paid.owed ≤ paid.loan.amountRepaid := by omega
    rw [if_neg hopen]
    simp only [goes_zoom, goes_onBook, lift_self]
    constructor
    · rintro ⟨hfigures, hr⟩
      exact ⟨hfigures, fun _ => hr, fun h => absurd h hall⟩
    · rintro ⟨hfigures, hr, -⟩
      exact ⟨hfigures, hr (by omega)⟩

/-- What is left of a payment on an active loan that is let in: the figures of the
penalty, and the settlement if the payment is all that is open. -/
structure SettlesTo (x : Vault) (w : World) (loan : LoanRecord) (b : Address) (dist : List YieldDistributionEntry)
    (payment : Int) (R : Vault → Prop) : Prop where
  penalty : PenaltyFigures w loan (accrueInterest w.now loan).owed (loan.amountRepaid + payment)
  stillOpen : payment < loan.outstandingAt w.now → R (x.takes w loan b payment)
  completes : payment = loan.outstandingAt w.now →
    (x.takes w loan b payment).CanSettle w (loan.paidAt w.now payment) b dist 0 ∧
      R ((x.takes w loan b payment).settled w (loan.paidAt w.now payment) b dist 0)

theorem goes_takeAndSettle {x : Store} {b : Address} {payment : Int} {loan : LoanRecord} {ctx : Context}
    (ho : x.book.loanToRepay b = some loan) (hopen : loan.status ≠ .defaulted) (hs : loan.Solid) (R : Vault → Prop) :
    (Goes (takePayment ctx.now b payment) ctx x fun taken y =>
      Goes (settlePayment b taken.1 taken.2) ctx y fun _ t => R t.vault) ↔
      Payable ctx.now x loan b payment ∧
        SettlesTo x.vault ctx.toWorld loan b (x.locked loan.id) payment R := by
  obtain ⟨hsame, -⟩ := SameLoan.paidAt ctx.now payment loan
  have hsettle : ∀ y : Store, Payable ctx.now x loan b payment →
      y.vault = x.vault.takes ctx.toWorld loan b payment → y.locked = x.locked →
      (Goes (settlePayment b ⟨loan.paidAt ctx.now payment, (accrueInterest ctx.now loan).owed⟩ false) ctx y
          (fun _ t => R t.vault) ↔ SettlesTo x.vault ctx.toWorld loan b (x.locked loan.id) payment R) := by
    intro y hp hvault hlocked
    have hpos := hp.positive
    have hrepaid := hs.repaid
    have hwithin : loan.amountRepaid + payment ≤ (accrueInterest ctx.now loan).owed := by
      have := hp.within
      unfold LoanRecord.outstandingAt at this
      omega
    have hsum : (loan.paidAt ctx.now payment).amountRepaid = loan.amountRepaid + payment := rfl
    rw [goes_settlePayment (by rw [hsame.amount]; exact hs.amount) (by dsimp only; omega) (by dsimp only; omega)
      (by dsimp only; omega), hvault, hlocked]
    have hfigures : PenaltyFigures ctx.toWorld (loan.paidAt ctx.now payment) (accrueInterest ctx.now loan).owed
        (loan.amountRepaid + payment) ↔
          PenaltyFigures ctx.toWorld loan (accrueInterest ctx.now loan).owed (loan.amountRepaid + payment) := by
      unfold PenaltyFigures PenaltyCharged penaltyProduct
      rw [hsame.amount, hsame.deadline]
    dsimp only
    rw [hsum, hfigures, hsame.id]
    have hout : loan.outstandingAt ctx.now = (accrueInterest ctx.now loan).owed - loan.amountRepaid := rfl
    constructor
    · rintro ⟨hpenalty, hopen, hcompletes⟩
      exact ⟨hpenalty, fun h => hopen (by omega), fun h => hcompletes (by omega)⟩
    · rintro ⟨hpenalty, hopen, hcompletes⟩
      exact ⟨hpenalty, fun h => hopen (by omega), fun h => hcompletes (by omega)⟩
  have hstatus : decide (loan.status = .defaulted) = false := decide_eq_false hopen
  constructor
  · intro h
    have hp := (goes_takePayment ho hs payment ctx).1 (h.mono fun _ _ _ => trivial)
    obtain ⟨taken, y, -, hgoes, rfl, hvault, hlocked⟩ := h.and_yields (takePayment_outcome ho payment ctx)
    rw [hstatus] at hgoes
    exact ⟨hp, (hsettle y hp hvault hlocked).1 hgoes⟩
  · rintro ⟨hp, hto⟩
    refine (((goes_takePayment ho hs payment ctx).2 hp).and_yields (takePayment_outcome ho payment ctx)).mono ?_
    rintro taken y ⟨-, rfl, hvault, hlocked⟩
    rw [hstatus]
    exact (hsettle y hp hvault hlocked).2 hto

/-- A payment on a loan that has not defaulted goes through, to the vault it
leaves, exactly if it is let in, taken and settled. -/
theorem goes_repay_open {s : State} {signers : List Address} {b : Address} {payment : Int} {loan : LoanRecord}
    (ho : s.store.book.loanToRepay b = some loan) (hopen : loan.status ≠ .defaulted) (hs : loan.Solid)
      (R : Vault → Prop) :
    Goes (repay b payment) ⟨s.world, signers⟩ s.store (fun _ t => R t.vault) ↔
      LetsIn s signers b ∧ Payable s.world.now s.store loan b payment ∧
        SettlesTo s.store.vault s.world loan b (s.store.locked loan.id) payment R := by
  have hframe : Yields (enterRepay b) ⟨s.world, signers⟩ s.store fun _ s₁ =>
      ((s₁.book = s.store.book ∧ s₁.vault = s.store.vault) ∧ s₁.covenants = s.store.covenants) ∧
        s₁.locked = s.store.locked :=
    (((Keeps.out _ _).and (Keeps.out _ _)).and (Keeps.out _ _)).and (Keeps.out _ _)
  have hpays : ∀ s₁ : Store, s₁.book = s.store.book → s₁.vault = s.store.vault → s₁.covenants = s.store.covenants →
      s₁.locked = s.store.locked →
      ((Goes (takePayment s.world.now b payment) ⟨s.world, signers⟩ s₁ fun taken y =>
        Goes (settlePayment b taken.1 taken.2) ⟨s.world, signers⟩ y fun _ z =>
          Goes (zoom releaseLock) ⟨s.world, signers⟩ z fun _ t => R t.vault) ↔
        Payable s.world.now s.store loan b payment ∧
          SettlesTo s.store.vault s.world loan b (s.store.locked loan.id) payment R) := by
    intro s₁ hbook hvault hcovenants hlocked
    have hbank : s₁.bank = s.store.bank := congrArg Vault.bank hvault
    simp only [goes_zoom, releaseLock, goes_alter]
    refine (@goes_takeAndSettle s₁ b payment loan ⟨s.world, signers⟩ (hbook ▸ ho) hopen hs R).trans ?_
    rw [hvault, hlocked]
    exact and_congr_left fun _ => ⟨fun h => h.congr hcovenants.symm hbank.symm, fun h => h.congr hcovenants hbank⟩
  rw [goes_repay]
  constructor
  · intro h
    have hin : LetsIn s signers b := h.mono fun _ _ _ => trivial
    obtain ⟨-, s₁, -, hgoes, ⟨⟨hbook, hvault⟩, hcovenants⟩, hlocked⟩ := h.and_yields hframe
    exact ⟨hin, (hpays s₁ hbook hvault hcovenants hlocked).1 hgoes⟩
  · rintro ⟨hin, hpay⟩
    refine (Goes.and_yields hin hframe).mono ?_
    rintro - s₁ ⟨-, ⟨⟨hbook, hvault⟩, hcovenants⟩, hlocked⟩
    exact (hpays s₁ hbook hvault hcovenants hlocked).2 hpay

/-! ## Every payment -/

/-- What it takes for every payment on an active loan to go through. -/
structure Repayable (s : State) (signers : List Address) (b : Address) (loan : LoanRecord) : Prop where
  letsIn : LetsIn s signers b
  monitored : s.store.terms.Monitored s.world.now loan.id
  fits : FitsI128 (loan.amount + loan.totalYield) ∧ FitsI128 (accrueInterest s.world.now loan).owed
  funded : loan.outstandingAt s.world.now ≤ s.store.bank.balance loan.tokenAddress b
  penalty : PenaltyCharged s.world loan →
    FitsI128 ((accrueInterest s.world.now loan).owed * loan.amount) ∧
      FitsI128 (penaltyProduct s.world loan (accrueInterest s.world.now loan).owed (loan.amountRepaid + 1))
  settles : (s.store.vault.takes s.world loan b (loan.outstandingAt s.world.now)).CanSettle s.world
    (loan.paidAt s.world.now (loan.outstandingAt s.world.now)) b (s.store.locked loan.id) 0

theorem exec_repay_iff {s : State} {signers : List Address} {b : Address} {payment : Int} {loan : LoanRecord}
    (ho : s.store.book.loanToRepay b = some loan) (hactive : loan.status = .active) (hs : loan.Solid) :
    (∃ t, exec ⟨signers, .repay b payment⟩ s = .ok t) ↔
      LetsIn s signers b ∧ Payable s.world.now s.store loan b payment ∧
      SettlesTo s.store.vault s.world loan b (s.store.locked loan.id) payment fun _ => True := by
  refine Iff.trans ?_ (goes_repay_open ho (by rw [hactive]; decide) hs fun _ => True)
  constructor
  · rintro ⟨t, ht⟩
    exact (goes_of_exec ht).mono fun _ _ _ => trivial
  · intro h
    obtain ⟨t, ht, -⟩ := exec_of_goes (c := ⟨signers, .repay b payment⟩) h
    exact ⟨t, ht⟩

end QuorumCredit
