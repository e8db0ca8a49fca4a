import QuorumCredit.Repayable
/-!
# Two ways to pay a part

`repay` and `repay_partial`, on the same active loan and with the same payment.
`repay_partial` accrues no interest, applies no milestone, looks at no covenant,
bounds the payment by nothing, and takes it in any allowed token.
-/

open Host Function

namespace QuorumCredit

/-! ## Milestones -/

/-- The part of the obligation repaid with the payment, in per mille, as the milestones read it. -/
def LoanRecord.permilleAt (payment : Int) (loan : LoanRecord) : Nat :=
  (max ((satI128 ((loan.amountRepaid + payment) * 1000)).tdiv (loan.amount + loan.totalYield)) 0).toNat % 2 ^ 32

/-- The payment reaches a milestone that the loan has no flag of yet. -/
def LoanRecord.ReachesMilestone (payment : Int) (loan : LoanRecord) : Prop :=
  0 < loan.amount + loan.totalYield ∧
    ∃ m ∈ milestones, m.permille ≤ loan.permilleAt payment ∧ loan.milestoneBonusApplied &&& m.flag = 0

instance (payment : Int) (loan : LoanRecord) : Decidable (loan.ReachesMilestone payment) :=
  inferInstanceAs (Decidable (_ ∧ _))

theorem le_flags_applyMilestones (permille : Nat) (ms : List Milestone) (state : Int × Nat) :
    state.2 ≤ (ms.foldl (applyMilestone permille) state).2 := by
  induction ms generalizing state with
  | nil => exact le_rfl
  | cons m ms ih =>
    refine le_trans ?_ (ih _)
    unfold applyMilestone
    split
    · exact Nat.left_le_or
    · exact le_rfl

/-- A flag that is set anew makes the flags greater. -/
theorem lt_or_of_and_eq_zero {flags flag : Nat} (h : flags &&& flag = 0) (hflag : flag ≠ 0) :
    flags < flags ||| flag := by
  refine lt_of_le_of_ne Nat.left_le_or fun heq => hflag ?_
  have hand : (flags ||| flag) &&& flag = flag := by rw [Nat.and_or_distrib_right, h, Nat.and_self, Nat.zero_or]
  rw [← hand, ← heq]
  exact h

/-- The milestones change nothing exactly if the payment reaches none that is new. -/
theorem applyMilestones_eq_iff (permille : Nat) {ms : List Milestone} (hms : ∀ m ∈ ms, m.flag ≠ 0) (state : Int × Nat) :
    ms.foldl (applyMilestone permille) state = state ↔
      ¬ ∃ m ∈ ms, m.permille ≤ permille ∧ state.2 &&& m.flag = 0 := by
  induction ms generalizing state with
  | nil => simp
  | cons m ms ih =>
    obtain ⟨hm, hrest⟩ := List.forall_mem_cons.1 hms
    simp only [List.foldl_cons, List.mem_cons, exists_eq_or_imp]
    by_cases hnew : m.permille ≤ permille ∧ state.2 &&& m.flag = 0
    · have hgreater : state.2 < (ms.foldl (applyMilestone permille) (applyMilestone permille state m)).2 := by
        refine (lt_or_of_and_eq_zero hnew.2 hm).trans_le ?_
        have hle := le_flags_applyMilestones permille ms (applyMilestone permille state m)
        rwa [applyMilestone, if_pos hnew] at hle ⊢
      refine iff_of_false (fun heq => ?_) fun hnone => hnone (.inl hnew)
      rw [heq] at hgreater
      exact lt_irrefl _ hgreater
    · rw [applyMilestone, if_neg hnew, ih hrest, or_iff_right hnew]

theorem applyMilestoneBonus_eq_iff (payment : Int) (loan : LoanRecord) :
    applyMilestoneBonus loan (loan.amountRepaid + payment) (loan.amount + loan.totalYield) =
      (loan.accruedInterest, loan.milestoneBonusApplied) ↔ ¬ loan.ReachesMilestone payment := by
  have hflags : ∀ m ∈ milestones, m.flag ≠ 0 := by decide
  unfold applyMilestoneBonus LoanRecord.ReachesMilestone
  by_cases hnone : loan.amount + loan.totalYield ≤ 0
  · rw [if_pos hnone]
    exact iff_of_true rfl fun h => absurd h.1 hnone.not_gt
  · rw [if_neg hnone]
    refine (applyMilestones_eq_iff _ hflags _).trans (not_congr ?_)
    exact (and_iff_right (not_le.1 hnone)).symm

/-! ## What each leaves -/

theorem after_of_ok {c : Call} {s : State} {t : Store} (h : exec c s = .ok t) : (s.after c).store = t := by
  simp only [State.after, h]

theorem after_of_refused {c : Call} {s : State} (h : ¬ ∃ t, exec c s = .ok t) : (s.after c).store = s.store := by
  cases hd : exec c s with
  | ok t => exact absurd ⟨t, hd⟩ h
  | error e => simp only [State.after, hd]

instance {γ : Type} (f : Store → γ) [Apart f Vault] [Apart f Terms] (now : Nat) (borrower : Address) (payment : Int) :
    Keeps f (takePayment now borrower payment) := by
  unfold takePayment; infer_instance

instance {γ : Type} (f : Store → γ) [Apart f Access] (borrower : Address) : Keeps f (repayGuards borrower) := by
  unfold repayGuards; infer_instance

section

variable {ctx : Context} {s : Store} {b : Address} {loan : LoanRecord}

/-- `repay_partial` behind the guards it shares with `repay`. -/
def takePartial (borrower : Address) (payment : Int) (token : Address) : Contract Store Unit := do
  let book ← look (·.book)
  let loan ← orFail (book.getActiveLoanRecord borrower) (.error .noActiveLoan)
  require (0 < payment) (.panic .invalidAmount)
  requireAllowedToken token
  collect token borrower payment
  let amountRepaid ← i128 (.error .arithmeticError) (loan.amountRepaid + payment)
  onBook (·.setLoan loan.id { loan with amountRepaid })

theorem repayPartial_eq (borrower : Address) (payment : Int) (token : Address) :
    repayPartial borrower payment token = (do
      repayGuards borrower
      takePartial borrower payment token) := by
  simp only [repayPartial, repayGuards, takePartial, bind_assoc]

/-- What `repay_partial` takes a payment under. -/
structure PartlyPayable (w : World) (x : Store) (loan : LoanRecord) (borrower : Address) (payment : Int)
    (token : Address) : Prop where
  positive : 0 < payment
  allowed : w.Allows token
  funded : payment ≤ x.bank.balance token borrower
  fits : FitsI128 (loan.amountRepaid + payment)

theorem goes_takePartial (ho : s.book.getActiveLoanRecord b = some loan) (payment : Int) (token : Address)
    (Q : Unit → Store → Prop) :
    Goes (takePartial b payment token) ctx s Q ↔ PartlyPayable ctx.toWorld s loan b payment token ∧
      Q () { s with
        book := s.book.setLoan loan.id { loan with amountRepaid := loan.amountRepaid + payment }
        vault := { s.vault with bank := s.vault.bank.move token b ctx.contract payment } } := by
  simp only [takePartial, goes_bind, goes_look, goes_orFail, goes_require, requireAllowedToken, goes_ask, yields_parts,
    goes_zoom, goes_collect, goes_i128, goes_onBook]
  constructor
  · rintro ⟨loan', hl, hpos, hallowed, ⟨-, hheld⟩, hfits, hq⟩
    obtain rfl := Option.some.inj (ho.symm.trans hl)
    exact ⟨⟨hpos, hallowed, hheld, hfits⟩, hq⟩
  · rintro ⟨h, hq⟩
    exact ⟨loan, ho, h.positive, h.allowed, ⟨h.positive.le, h.funded⟩, h.fits, hq⟩

/-- A payment below what is open, that `repay` takes, is noted on the loan with the interest and the milestones. -/
theorem repay_leaves (ho : s.book.loanToRepay b = some loan) {payment : Int}
    (hopen : payment < loan.outstandingAt ctx.now) :
    Yields (repay b payment) ctx s fun _ t => t.book = s.book.setLoan loan.id (loan.paidAt ctx.now payment) ∧
      t.vault = s.vault.takes ctx.toWorld loan b payment := by
  obtain ⟨hsame, -⟩ := SameLoan.paidAt ctx.now payment loan
  rw [repay_eq]
  simp only [yields_steps]
  refine yields_keeps₂ Store.book Store.vault fun _ s₁ hbook hvault => ?_
  refine ((takePayment_outcome (hbook ▸ ho) payment ctx).and (Keeps.out (f := Store.book) ctx s₁)).mono ?_
  rintro taken s₂ ⟨⟨rfl, hvault₂, -⟩, hbook₂⟩
  have hless : ¬ (accrueInterest ctx.now loan).owed ≤ (loan.paidAt ctx.now payment).amountRepaid := by
    unfold LoanRecord.outstandingAt at hopen
    change ¬ _ ≤ loan.amountRepaid + payment
    omega
  simp only [settlePayment, yields_steps]
  refine yields_keeps id fun _ s₃ h₃ => ?_
  rw [id, id] at h₃
  subst h₃
  rw [if_neg hless]
  simp only [yields_parts, yields_onBook, releaseLock, yields_alter]
  refine ⟨?_, ?_⟩
  · rw [hsame.id]
    change s₃.book.setLoan loan.id _ = _
    rw [hbook₂, hbook]
  · change s₃.vault = _
    rw [hvault₂, hvault]

end

section

variable {s : State} {signers : List Address} {b : Address} {loan : LoanRecord} {payment : Int} {token : Address}

/-- `repay` takes the payment, where it does not complete the loan. -/
structure RepayTakes (s : State) (signers : List Address) (b : Address) (loan : LoanRecord) (payment : Int) : Prop where
  letsIn : LetsIn s signers b
  payable : Payable s.world.now s.store loan b payment
  penalty : PenaltyFigures s.world loan (accrueInterest s.world.now loan).owed (loan.amountRepaid + payment)

/-- `repay_partial` takes the payment; it has no lock. -/
structure PartialTakes (s : State) (signers : List Address) (b : Address) (loan : LoanRecord) (payment : Int)
    (token : Address) : Prop where
  letsIn : Goes (repayGuards b) ⟨s.world, signers⟩ s.store fun _ _ => True
  payable : PartlyPayable s.world s.store loan b payment token

/-- What a payment has done to the loan and to the tokens. -/
structure PaidSo (s : State) (b : Address) (loan new : LoanRecord) (payment : Int) (token : Address) (t : Store) :
    Prop where
  record : t.book.loan loan.id = some new
  bank : t.bank = s.store.bank.move token b s.world.contract payment

theorem exec_repay_taken_iff (ho : s.store.book.getActiveLoanRecord b = some loan) (hactive : loan.status = .active)
    (hs : loan.Solid) (hopen : payment ≠ loan.outstandingAt s.world.now) :
    (∃ t, exec ⟨signers, .repay b payment⟩ s = .ok t) ↔ RepayTakes s signers b loan payment := by
  rw [exec_repay_iff (loanToRepay_of_active ho) hactive hs]
  constructor
  · rintro ⟨hin, hp, hto⟩
    exact ⟨hin, hp, hto.penalty⟩
  · rintro ⟨hin, hp, hpenalty⟩
    exact ⟨hin, hp, hpenalty, fun _ => trivial, fun hall => absurd hall hopen⟩

theorem exec_repay_paid (ho : s.store.book.getActiveLoanRecord b = some loan) {t : Store}
    (hopen : payment < loan.outstandingAt s.world.now) (hd : exec ⟨signers, .repay b payment⟩ s = .ok t) :
    PaidSo s b loan (loan.paidAt s.world.now payment) payment loan.tokenAddress t := by
  have hleaves := @repay_leaves ⟨s.world, signers⟩ _ _ _ (loanToRepay_of_active ho) _ hopen
  obtain ⟨hbook, hvault⟩ := yields_exec (c := ⟨signers, .repay b payment⟩) hleaves hd
  refine ⟨?_, congrArg Vault.bank hvault⟩
  rw [hbook, LoanBook.setLoan_loan, update_self]

theorem goes_repayPartial (ho : s.store.book.getActiveLoanRecord b = some loan) (R : LoanBook → Vault → Prop) :
    Goes (repayPartial b payment token) ⟨s.world, signers⟩ s.store (fun _ t => R t.book t.vault) ↔
      PartialTakes s signers b loan payment token ∧
        R (s.store.book.setLoan loan.id { loan with amountRepaid := loan.amountRepaid + payment })
          { s.store.vault with bank := s.store.bank.move token b s.world.contract payment } := by
  have hframe : Yields (repayGuards b) ⟨s.world, signers⟩ s.store fun _ s₁ =>
      s₁.book = s.store.book ∧ s₁.vault = s.store.vault := (Keeps.out _ _).and (Keeps.out _ _)
  have htake : ∀ s₁ : Store, s₁.book = s.store.book → s₁.vault = s.store.vault →
      (Goes (takePartial b payment token) ⟨s.world, signers⟩ s₁ (fun _ t => R t.book t.vault) ↔
        PartlyPayable s.world s.store loan b payment token ∧
          R (s.store.book.setLoan loan.id { loan with amountRepaid := loan.amountRepaid + payment })
            { s.store.vault with bank := s.store.bank.move token b s.world.contract payment }) := by
    intro s₁ hbook hvault
    have hbank : s₁.bank = s.store.bank := congrArg Vault.bank hvault
    rw [goes_takePartial (hbook ▸ ho), hbook, hvault]
    refine and_congr_left fun _ => ⟨fun h => ?_, fun h => ?_⟩
    · exact ⟨h.positive, h.allowed, hbank ▸ h.funded, h.fits⟩
    · exact ⟨h.positive, h.allowed, hbank.symm ▸ h.funded, h.fits⟩
  rw [repayPartial_eq, goes_bind]
  constructor
  · intro h
    have hin : Goes (repayGuards b) ⟨s.world, signers⟩ s.store fun _ _ => True := h.mono fun _ _ _ => trivial
    obtain ⟨-, s₁, -, hgoes, hbook, hvault⟩ := h.and_yields hframe
    obtain ⟨hpayable, hr⟩ := (htake s₁ hbook hvault).1 hgoes
    exact ⟨⟨hin, hpayable⟩, hr⟩
  · rintro ⟨⟨hin, hpayable⟩, hr⟩
    refine (Goes.and_yields hin hframe).mono ?_
    rintro - s₁ ⟨-, hbook, hvault⟩
    exact (htake s₁ hbook hvault).2 ⟨hpayable, hr⟩

theorem exec_repayPartial_iff (ho : s.store.book.getActiveLoanRecord b = some loan) :
    (∃ t, exec ⟨signers, .repayPartial b payment token⟩ s = .ok t) ↔ PartialTakes s signers b loan payment token := by
  refine Iff.trans ?_ ((goes_repayPartial ho fun _ _ => True).trans (and_iff_left trivial))
  constructor
  · rintro ⟨t, ht⟩
    exact (goes_of_exec ht).mono fun _ _ _ => trivial
  · intro h
    obtain ⟨t, ht, -⟩ := exec_of_goes (c := ⟨signers, .repayPartial b payment token⟩) h
    exact ⟨t, ht⟩

theorem exec_repayPartial_paid (ho : s.store.book.getActiveLoanRecord b = some loan) {t : Store}
    (hd : exec ⟨signers, .repayPartial b payment token⟩ s = .ok t) :
    PaidSo s b loan { loan with amountRepaid := loan.amountRepaid + payment } payment token t := by
  have hgoes := (goes_repayPartial ho fun k v => k = t.book ∧ v = t.vault).1
    ((goes_of_exec hd).mono fun _ _ h => ⟨congrArg Store.book h, congrArg Store.vault h⟩)
  obtain ⟨-, hbook, hvault⟩ := hgoes
  refine ⟨?_, (congrArg Vault.bank hvault).symm⟩
  rw [← hbook, LoanBook.setLoan_loan, update_self]

/-! ## The same effect -/

/-- Both calls leave the same loan record and have moved the same tokens. A call
that is refused changes nothing. -/
structure SameEffect (s : State) (signers : List Address) (b : Address) (id : Nat) (payment : Int) (token : Address) :
    Prop where
  record : (s.after ⟨signers, .repay b payment⟩).store.book.loan id =
    (s.after ⟨signers, .repayPartial b payment token⟩).store.book.loan id
  bank : (s.after ⟨signers, .repay b payment⟩).store.bank =
    (s.after ⟨signers, .repayPartial b payment token⟩).store.bank

/-- Interest and milestones change nothing exactly if no whole day has passed since
the last accrual and the payment reaches no new milestone. -/
theorem paidAt_eq_iff (now : Nat) (payment : Int) (loan : LoanRecord) :
    loan.paidAt now payment = { loan with amountRepaid := loan.amountRepaid + payment } ↔
      (now - loan.lastInterestCalc) / secsPerDay = 0 ∧ ¬ loan.ReachesMilestone payment := by
  constructor
  · intro h
    have hcalc := congrArg LoanRecord.lastInterestCalc h
    change (accrueInterest now loan).lastInterestCalc = loan.lastInterestCalc at hcalc
    have hrecent := accrueInterest_lastCalc now loan
    rw [hcalc] at hrecent
    have hbonus : loan.milestonesAt now payment = (loan.accruedInterest, loan.milestoneBonusApplied) :=
      Prod.ext (congrArg LoanRecord.accruedInterest h) (congrArg LoanRecord.milestoneBonusApplied h)
    rw [LoanRecord.milestonesAt, accrueInterest_recent hrecent] at hbonus
    exact ⟨hrecent, (applyMilestoneBonus_eq_iff payment loan).1 hbonus⟩
  · rintro ⟨hrecent, hnone⟩
    have hbonus := (applyMilestoneBonus_eq_iff payment loan).2 hnone
    rw [LoanRecord.paidAt, LoanRecord.milestonesAt, accrueInterest_recent hrecent, hbonus]

/-- A payment changes what is repaid. -/
theorem PaidSo.ne {old new : LoanRecord} {t t' : Store} (h : PaidSo s b old new payment token t) (hpos : 0 < payment)
    (hnew : new.amountRepaid = old.amountRepaid + payment) (hsame : t'.book.loan old.id = some old) :
    t.book.loan old.id ≠ t'.book.loan old.id := by
  rw [h.record, hsame]
  intro heq
  rw [Option.some.inj heq] at hnew
  omega

theorem token_of_moved {bank : Ledger} {token token' src dst : Address} {amount : Int}
    (h : bank.move token src dst amount = bank.move token' src dst amount) : token = token' :=
  congrArg Transfer.token (List.cons.inj (congrArg Bank.log h)).1

/-- On every active loan, in every state the contract can be in, a payment that
does not complete the loan has the same effect by `repay` and `repay_partial` exactly
if neither takes it, or both do, in the loan's token, no whole day has passed
since interest was accrued and the payment reaches no new milestone. -/
theorem partial_payments_agree_iff (hr : Reachable s) (ho : s.store.book.getActiveLoanRecord b = some loan)
    (hactive : loan.status = .active) (hopen : payment ≠ loan.outstandingAt s.world.now) :
    SameEffect s signers b loan.id payment token ↔
      (¬ RepayTakes s signers b loan payment ∧ ¬ PartialTakes s signers b loan payment token) ∨
      ((RepayTakes s signers b loan payment ∧ PartialTakes s signers b loan payment token) ∧
        loan.tokenAddress = token ∧ (s.world.now - loan.lastInterestCalc) / secsPerDay = 0 ∧
          ¬ loan.ReachesMilestone payment) := by
  obtain ⟨h, hr⟩ := hr
  obtain ⟨-, hstored, -⟩ := hr.keyed.active_record ho
  have hsolid := hr.solid _ _ hstored
  have hwhole := @exec_repay_taken_iff s signers b loan payment ho hactive hsolid hopen
  have hpart := @exec_repayPartial_iff s signers b loan payment token ho
  by_cases hw : RepayTakes s signers b loan payment
  · obtain ⟨t, hd⟩ := hwhole.2 hw
    have hpos := hw.payable.positive
    have hbelow : payment < loan.outstandingAt s.world.now := lt_of_le_of_ne hw.payable.within hopen
    have hpaid := exec_repay_paid ho hbelow hd
    have hafter : (s.after ⟨signers, .repay b payment⟩).store = t := after_of_ok hd
    by_cases hp : PartialTakes s signers b loan payment token
    · obtain ⟨t', hd'⟩ := hpart.2 hp
      have hpaid' := exec_repayPartial_paid ho hd'
      have hafter' : (s.after ⟨signers, .repayPartial b payment token⟩).store = t' := after_of_ok hd'
      rw [or_iff_right fun h => h.1 hw, and_iff_right ⟨hw, hp⟩, ← paidAt_eq_iff]
      constructor
      · rintro ⟨hrecord, hbank⟩
        rw [hafter, hafter', hpaid.record, hpaid'.record] at hrecord
        rw [hafter, hafter', hpaid.bank, hpaid'.bank] at hbank
        exact ⟨token_of_moved hbank, Option.some.inj hrecord⟩
      · rintro ⟨htoken, hrecord⟩
        refine ⟨?_, ?_⟩
        · rw [hafter, hafter', hpaid.record, hpaid'.record, hrecord]
        · rw [hafter, hafter', hpaid.bank, hpaid'.bank, htoken]
    · have hkept : (s.after ⟨signers, .repayPartial b payment token⟩).store = s.store :=
        after_of_refused fun h => hp (hpart.1 h)
      refine iff_of_false (fun hsame => ?_) ?_
      · refine hpaid.ne hpos rfl hstored ?_
        rw [← hafter, hsame.record, hkept]
      · rintro (⟨hnot, -⟩ | ⟨⟨-, htakes⟩, -⟩)
        · exact hnot hw
        · exact hp htakes
  · have hkept : (s.after ⟨signers, .repay b payment⟩).store = s.store :=
      after_of_refused fun h => hw (hwhole.1 h)
    by_cases hp : PartialTakes s signers b loan payment token
    · obtain ⟨t', hd'⟩ := hpart.2 hp
      have hpaid' := exec_repayPartial_paid ho hd'
      have hafter' : (s.after ⟨signers, .repayPartial b payment token⟩).store = t' := after_of_ok hd'
      refine iff_of_false (fun hsame => ?_) ?_
      · refine hpaid'.ne hp.payable.positive rfl hstored ?_
        rw [← hafter', ← hsame.record, hkept]
      · rintro (⟨-, hnot⟩ | ⟨⟨htakes, -⟩, -⟩)
        · exact hnot hp
        · exact hw htakes
    · have hkept' : (s.after ⟨signers, .repayPartial b payment token⟩).store = s.store :=
        after_of_refused fun h => hp (hpart.1 h)
      refine iff_of_true ⟨?_, ?_⟩ (.inl ⟨hw, hp⟩)
      · rw [hkept, hkept']
      · rw [hkept, hkept']

end

/-- On the day the loan is requested, 10000 of the 510000 owed are paid alike. -/
theorem partial_payments_agree_first_day :
    let s := start.play requestedLoan
    ∃ loan, s.store.book.getActiveLoanRecord 10 = some loan ∧ SameEffect s [10] 10 loan.id 10000 100 := by
  intro s
  have hactive : (s.store.book.getActiveLoanRecord 10).any (fun loan => loan.status = .active ∧
      loan.outstandingAt s.world.now = 510000 ∧ loan.tokenAddress = 100 ∧
        (s.world.now - loan.lastInterestCalc) / secsPerDay = 0 ∧ ¬ loan.ReachesMilestone 10000) = true := by
    decide +kernel
  obtain ⟨loan, ho, hloan⟩ := (Option.any_eq_true _ _).1 hactive
  obtain ⟨hst, hout, htoken, hrecent, hnone⟩ := of_decide_eq_true hloan
  obtain ⟨h, hr⟩ : Reachable s := Reachable.script ..
  obtain ⟨-, hstored, -⟩ := hr.keyed.active_record ho
  have hopen : (10000 : Int) ≠ loan.outstandingAt s.world.now := by
    rw [hout]
    decide
  have hwhole : (exec ⟨[10], .repay 10 10000⟩ s).toBool = true := by decide +kernel
  have hpart : (exec ⟨[10], .repayPartial 10 10000 100⟩ s).toBool = true := by decide +kernel
  refine ⟨loan, ho, (partial_payments_agree_iff ⟨h, hr⟩ ho hst hopen).2 (.inr ⟨⟨?_, ?_⟩, htoken, hrecent, hnone⟩)⟩
  · exact (exec_repay_taken_iff ho hst (hr.solid _ _ hstored) hopen).1 ⟨_, exec_after hwhole⟩
  · exact (exec_repayPartial_iff ho).1 ⟨_, exec_after hpart⟩

/-- Ten days into the loan `repay` accrues the interest of ten days, and `repay_partial` none. -/
theorem partial_payments_differ :
    ¬ ∀ (s : State) (signers : List Address) (b : Address) (loan : LoanRecord) (payment : Int) (token : Address),
      Reachable s → s.store.book.getActiveLoanRecord b = some loan → loan.status = .active →
      payment ≠ loan.outstandingAt s.world.now → SameEffect s signers b loan.id payment token := by
  intro hall
  let s := start.play loanAtDayTen
  have hactive : (s.store.book.getActiveLoanRecord 10).any (fun loan => loan.status = .active ∧
      loan.outstandingAt s.world.now = 510680 ∧ loan.id = 2) = true := by decide +kernel
  obtain ⟨loan, ho, hloan⟩ := (Option.any_eq_true _ _).1 hactive
  obtain ⟨hst, hout, hid⟩ := of_decide_eq_true hloan
  have hopen : (10000 : Int) ≠ loan.outstandingAt s.world.now := by
    rw [hout]
    decide
  have hr : Reachable s := Reachable.script ..
  have hsame := hall s [10] 10 loan 10000 100 hr ho hst hopen
  have hdiffer : ((s.after ⟨[10], .repay 10 10000⟩).store.book.loan 2).map (·.accruedInterest) ≠
      ((s.after ⟨[10], .repayPartial 10 10000 100⟩).store.book.loan 2).map (·.accruedInterest) := by decide +kernel
  have hrecord := hsame.record
  rw [hid] at hrecord
  exact hdiffer (by rw [hrecord])

end QuorumCredit
