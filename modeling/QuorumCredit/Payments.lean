import QuorumCredit.Book
/-!
# Payments on a loan

What a call may do to the record of one loan, and what that means for the sum
repaid. `repay` refuses a payment above what is open, but it takes the milestone
discount off the interest after that check and settles by the total from before
it; `repay_partial` checks nothing. So the sum repaid stays below the total owed
until the loan is settled exactly as long as no payment meets either gap.
-/

open Host Function

namespace QuorumCredit

/-! ## How a record changes -/

/-- What a call does to the record of a loan it does not issue. -/
inductive RecordMove (w : World) (k : LoanBook) : Op → LoanRecord → LoanRecord → Prop
  | kept {op old} : RecordMove w k op old old
  | marked {op old} : old.status = .active → RecordMove w k op old { old with status := .defaulted }
  | flagged {op old} : RecordMove w k op old { old with defaulted := true }
  | paid {borrower payment old new} :
      k.loanToRepay borrower = some old → new.status = old.status → Paid w.now payment old new →
      payment < old.outstandingAt w.now → RecordMove w k (.repay borrower payment) old new
  | settled {borrower payment old new} :
      k.loanToRepay borrower = some old → new.status = .repaid → Paid w.now payment old new →
      payment = old.outstandingAt w.now → RecordMove w k (.repay borrower payment) old new
  | paidPartial {borrower payment token old} :
      k.getActiveLoanRecord borrower = some old → 0 < payment →
      RecordMove w k (.repayPartial borrower payment token) old { old with amountRepaid := old.amountRepaid + payment }
  | refinanced {borrower amount threshold token old new} :
      SameLoan old new → new.status = .repaid →
      old.amountRepaid < new.amountRepaid ∧ new.amountRepaid = old.amount + old.totalYield →
      new.accruedInterest = old.accruedInterest →
      RecordMove w k (.refinanceLoan borrower amount threshold token) old new
  | executed {op borrower old} :
      op.executes = some borrower → k.getActiveLoanRecord borrower = some old → old.status ≠ .defaulted →
      RecordMove w k op old { old with status := .defaulted }

/-- A loan as it is issued. -/
def LoanRecord.Untouched (loan : LoanRecord) : Prop :=
  loan.status = .active ∧ loan.amountRepaid = 0 ∧ loan.accruedInterest = 0 ∧ 0 ≤ loan.amount

namespace LoanBook

variable {k : LoanBook} {w : World} {op : Op}

/-- Every loan of `k'` is one of `k` that moved as the call may move it, or was issued by it. -/
def RecordsMove (w : World) (k : LoanBook) (op : Op) (k' : LoanBook) : Prop :=
  ∀ id new, k'.loan id = some new →
    (∃ old, k.loan id = some old ∧ RecordMove w k op old new) ∨ k.loan id = none ∧ new.Untouched

theorem RecordsMove.congr {k' k'' : LoanBook} (h : RecordsMove w k op k') (hl : k''.loan = k'.loan) :
    RecordsMove w k op k'' := by
  intro id new hnew
  exact h id new (hl ▸ hnew)

theorem RecordsMove.setLoan {id : Nat} {old new : LoanRecord} (ho : k.loan id = some old)
    (hm : RecordMove w k op old new) : RecordsMove w k op (k.setLoan id new) := by
  intro i l hl
  rcases setLoan_cases hl with ⟨rfl, rfl⟩ | ⟨-, hl⟩
  · exact .inl ⟨old, ho, hm⟩
  · exact .inl ⟨l, hl, .kept⟩

theorem RecordsMove.markAll (now : Nat) (ids : List Nat) : RecordsMove w k op (k.markAll now ids) := by
  intro i new hnew
  rw [markAll_loan] at hnew
  split at hnew
  case isFalse => exact .inl ⟨new, hnew, .kept⟩
  case isTrue =>
    obtain ⟨old, ho, rfl⟩ := Option.map_eq_some_iff.1 hnew
    refine .inl ⟨old, ho, ?_⟩
    by_cases hd : isLoanDefaulted now old = true
    · rw [markRecord, if_pos hd]
      exact .marked (isLoanDefaulted_active hd)
    · rw [markRecord, if_neg hd]
      exact .kept

/-- Issuing a loan after the records have moved. -/
theorem RecordsMove.issue {k' : LoanBook} (h : RecordsMove w k op k') (hk' : k'.Keyed)
    (hnone : ∀ id, k'.loan id = none → k.loan id = none) {n : Nat} {b : Address} {loan : LoanRecord}
    (hf : Fresh k' n b loan) : RecordsMove w k op ((k'.takeIds (n + 1)).issue loan) := by
  intro i new hnew
  rcases setLoan_cases (k := k'.takeIds (n + 1)) hnew with ⟨rfl, rfl⟩ | ⟨-, hnew⟩
  · have hunused : k'.loan new.id = none := hk'.unused (by rw [hf.id]; omega)
    exact .inr ⟨hnone _ hunused, hf.status, hf.unpaid, hf.interestFree, hf.amount⟩
  · exact h i new hnew

theorem RecordsMove.pool {k₀ k k' : LoanBook} {token : Address} {pool : List (Address × Int)}
    (h : RecordsMove w k₀ op k) (hk : k.Keyed) (hnone : ∀ id, k.loan id = none → k₀.loan id = none)
    (hp : PoolEffect token k pool k') : RecordsMove w k₀ op k' := by
  induction hp with
  | nil => exact h
  | @cons k _ _ loan _ _ hf _ _ _ ih =>
    refine ih (h.issue hk hnone hf) (hk.issue hf) fun id hid => hnone id ?_
    -- an id without a loan after the issue had none before
    by_cases hi : id = loan.id
    · rw [hi, issue_loan, update_self] at hid
      cases hid
    · rwa [issue_loan, update_of_ne hi] at hid

theorem RecordsMove.effect {k' : LoanBook} (hk : k.Keyed) (he : Effect w k op k') : RecordsMove w k op k' := by
  cases he with
  | looked _ => exact .markAll w.now _
  | @requested b amount threshold purpose token loan _ hf _ _ =>
    obtain ⟨ids, hopen⟩ := openLoan_eq ((k.markAll w.now (k.borrowerLoanIds b)).takeIds 2) loan
    refine ((RecordsMove.markAll w.now _).issue (hk.markAll w.now _) (fun id hid => ?_) hf).congr (by rw [hopen]; rfl)
    rw [markAll_loan] at hid
    split at hid
    · exact Option.map_eq_none_iff.1 hid
    · exact hid
  | paid ho hs hst hpaid hopen => exact .setLoan (hs.id ▸ (hk.loan_to_repay ho).1) (.paid ho hst hpaid hopen)
  | recovered ho _ hs hst hpaid hall => exact .setLoan (hs.id ▸ (hk.loan_to_repay ho).1) (.settled ho hst hpaid hall)
  | closed ho _ hs hst hpaid hall =>
    exact (RecordsMove.setLoan (hs.id ▸ (hk.loan_to_repay ho).1) (.settled ho hst hpaid hall)).congr rfl
  | @paidPartial b payment token old new ho hs _ hpos hnew =>
    subst hnew
    exact .setLoan (hk.active_record ho).2.1 (.paidPartial ho hpos)
  | @refinanced b amount threshold token old new loan ho hs hst hsum hinterest hf _ _ =>
    have hl := (hk.active_record ho).2.1
    have hclosed := (hk.store hl hs (.inr hst)).release b
    have hmove : RecordsMove w k (.refinanceLoan b amount threshold token)
        ((k.setLoan new.id new).setActiveLoan b none) :=
      (RecordsMove.setLoan (hs.id ▸ hl) (.refinanced hs hst hsum hinterest)).congr rfl
    refine hmove.issue hclosed (fun id hid => ?_) (hf.congr rfl)
    by_cases hi : id = new.id
    · rw [hi, setActiveLoan_loan, setLoan_loan, update_self] at hid
      cases hid
    · rwa [setActiveLoan_loan, setLoan_loan, update_of_ne hi] at hid
  | pooled _ _ hp => exact RecordsMove.pool (fun id new hnew => .inl ⟨new, hnew, .kept⟩) hk (fun _ h => h) hp
  | slashed ho _ => exact (RecordsMove.setLoan (hk.active_record ho).2.1 .flagged).congr rfl
  | autoSlashed _ _ => exact fun id new hnew => .inl ⟨new, hnew, .kept⟩
  | claimed ho _ _ => exact (RecordsMove.setLoan (hk.active_record ho).2.1 .flagged).congr rfl
  | executedVote ho hst | executedPending ho hst =>
    exact (RecordsMove.setLoan (hk.active_record ho).2.1 (.executed rfl ho hst)).congr rfl

end LoanBook

/-! ## Interest and discounts -/

theorem calculateDailyCompoundInterest_nonneg (principal : Int) (days : Nat) :
    0 ≤ calculateDailyCompoundInterest principal days := by
  have hmul : ∀ x y : Int, 0 ≤ x → 0 ≤ y → 0 ≤ mulOrZero x y := by
    intro x y hx hy
    unfold mulOrZero
    split
    · exact Int.mul_nonneg hx hy
    · exact le_rfl
  unfold calculateDailyCompoundInterest
  split
  case isTrue => exact le_rfl
  case isFalse h =>
    refine hmul _ _ (Int.tdiv_nonneg (Int.tdiv_nonneg (hmul _ _ (by omega) ?_) (by omega)) (by omega)) (by omega)
    decide

theorem accrueInterest_nonneg (now : Nat) {loan : LoanRecord} (h : 0 ≤ loan.accruedInterest) :
    0 ≤ (accrueInterest now loan).accruedInterest := by
  simp only [accrueInterest]
  split
  case isFalse => exact h
  case isTrue =>
    have hinterest := calculateDailyCompoundInterest_nonneg (max (loan.amount - loan.amountRepaid) 0)
      ((now - loan.lastInterestCalc) / secsPerDay)
    dsimp only
    split
    · omega
    · decide

/-- A milestone takes something off, and leaves nothing below zero. -/
theorem applyMilestone_bounds (permille : Nat) {state : Int × Nat} {m : Milestone} (hm : 0 ≤ m.discountBps)
    (h : 0 ≤ state.1) :
    0 ≤ (applyMilestone permille state m).1 ∧ (applyMilestone permille state m).1 ≤ state.1 := by
  unfold applyMilestone
  split
  case isFalse => exact ⟨h, le_rfl⟩
  case isTrue =>
    have hproduct := Int.mul_nonneg h hm
    have hsat : 0 ≤ satI128 (state.1 * m.discountBps) := by
      unfold satI128 i128Min i128Max
      omega
    have hdiscount := Int.tdiv_nonneg hsat (show (0 : Int) ≤ 10000 by omega)
    dsimp only
    omega

theorem applyMilestones_bounds (permille : Nat) {ms : List Milestone} (hms : ∀ m ∈ ms, 0 ≤ m.discountBps)
    {state : Int × Nat} (h : 0 ≤ state.1) :
    0 ≤ (ms.foldl (applyMilestone permille) state).1 ∧ (ms.foldl (applyMilestone permille) state).1 ≤ state.1 := by
  induction ms generalizing state with
  | nil => exact ⟨h, le_rfl⟩
  | cons m ms ih =>
    rw [List.forall_mem_cons] at hms
    obtain ⟨hpos, hle⟩ := applyMilestone_bounds permille hms.1 h
    obtain ⟨hpos', hle'⟩ := ih hms.2 hpos
    exact ⟨hpos', hle'.trans hle⟩

theorem milestonesAt_bounds (now : Nat) (payment : Int) {loan : LoanRecord} (h : 0 ≤ loan.accruedInterest) :
    0 ≤ (loan.milestonesAt now payment).1 ∧
      (loan.milestonesAt now payment).1 ≤ (accrueInterest now loan).accruedInterest := by
  have haccrued := accrueInterest_nonneg now h
  unfold LoanRecord.milestonesAt applyMilestoneBonus
  split
  · exact ⟨haccrued, le_rfl⟩
  · exact applyMilestones_bounds _ (by decide) haccrued

theorem discountAt_nonneg (now : Nat) (payment : Int) {loan : LoanRecord} (h : 0 ≤ loan.accruedInterest) :
    0 ≤ loan.discountAt now payment :=
  Int.sub_nonneg.2 (milestonesAt_bounds now payment h).2

/-- What a payment leaves owed is what was owed, less the discount. -/
theorem owed_paidAt (now : Nat) (payment : Int) (loan : LoanRecord) :
    (loan.paidAt now payment).owed = (accrueInterest now loan).owed - loan.discountAt now payment := by
  simp only [LoanRecord.paidAt, LoanRecord.owed, LoanRecord.discountAt]
  omega

namespace Paid

variable {now : Nat} {payment : Int} {old new : LoanRecord}

theorem amountRepaid (h : Paid now payment old new) : new.amountRepaid = old.amountRepaid + payment := by
  rw [h.record]
  rfl

theorem owed (h : Paid now payment old new) :
    new.owed = (accrueInterest now old).owed - old.discountAt now payment := by
  rw [← owed_paidAt, h.record]
  rfl

theorem accruedInterest (h : Paid now payment old new) : new.accruedInterest = (old.milestonesAt now payment).1 := by
  rw [h.record]
  rfl

theorem obligation (h : Paid now payment old new) : new.amount = old.amount ∧ new.totalYield = old.totalYield := by
  obtain ⟨hsame, -⟩ := SameLoan.paidAt now payment old
  rw [h.record]
  exact ⟨hsame.amount, hsame.totalYield⟩

end Paid

/-- No sum of the record is negative. -/
structure LoanRecord.Solid (loan : LoanRecord) : Prop where
  amount : 0 ≤ loan.amount
  repaid : 0 ≤ loan.amountRepaid
  interest : 0 ≤ loan.accruedInterest

def LoanBook.Solid (k : LoanBook) : Prop := ∀ id loan, k.loan id = some loan → loan.Solid

theorem RecordMove.solid {w : World} {k : LoanBook} {op : Op} {old new : LoanRecord} (h : RecordMove w k op old new)
    (hs : old.Solid) : new.Solid := by
  cases h with
  | kept => exact hs
  | marked _ | flagged | executed _ _ _ => exact ⟨hs.amount, hs.repaid, hs.interest⟩
  | paid _ _ hp _ | settled _ _ hp _ =>
    have hpositive := hp.positive
    have hrepaid := hs.repaid
    refine ⟨hp.obligation.1 ▸ hs.amount, ?_, hp.accruedInterest ▸ (milestonesAt_bounds _ _ hs.interest).1⟩
    rw [hp.amountRepaid]
    omega
  | paidPartial _ hpositive =>
    have hrepaid := hs.repaid
    exact ⟨hs.amount, by dsimp only; omega, hs.interest⟩
  | refinanced hsame _ hsum hinterest =>
    have hrepaid := hs.repaid
    exact ⟨hsame.amount ▸ hs.amount, by omega, hinterest ▸ hs.interest⟩

theorem LoanBook.Solid.effect {w : World} {k k' : LoanBook} {op : Op} (hs : k.Solid) (hk : k.Keyed)
    (he : Effect w k op k') : k'.Solid := by
  intro id new hnew
  rcases RecordsMove.effect hk he id new hnew with ⟨old, ho, hm⟩ | ⟨-, -, hunpaid, hinterest, hamount⟩
  · exact hm.solid (hs id old ho)
  · exact ⟨hamount, hunpaid.ge, hinterest.ge⟩

theorem History.solid {h s} (hr : History h s) : s.store.book.Solid := by
  refine hr.bookWhen (fun _ _ h => by cases h) (fun hr hs he _ => hs.effect hr.keyed he) (along_true h)

/-! ## The sum repaid -/

/-- The payment earns no discount, or stays below what is open after it. -/
def LoanRecord.PaysInto (now : Nat) (payment : Int) (loan : LoanRecord) : Prop :=
  loan.discountAt now payment = 0 ∨ payment < loan.outstandingAt now - loan.discountAt now payment

/-- The call keeps loan `id` to what it owes: `repay` under the milestones,
`repay_partial` below the total, and no slash of the loan once it is repaid. -/
def KeepsToTotal (id : Nat) (s : State) : Op → Prop
  | .repay borrower payment =>
    ∀ loan ∈ s.store.book.loanToRepay borrower, loan.id = id → loan.PaysInto s.world.now payment
  | .repayPartial borrower payment _ =>
    ∀ loan ∈ s.store.book.getActiveLoanRecord borrower, loan.id = id → loan.amountRepaid + payment < loan.owed
  | .executeSlashVote borrower | .executePendingSlash borrower =>
    ∀ loan ∈ s.store.book.getActiveLoanRecord borrower, loan.id = id → loan.status ≠ .repaid
  | _ => True

/-- At most the total owed has been repaid, and the loan is settled once all of it has. -/
def LoanRecord.WithinTotal (loan : LoanRecord) : Prop :=
  loan.amountRepaid ≤ loan.owed ∧ (loan.owed ≤ loan.amountRepaid → loan.status = .repaid)

/-- What the loan is to bring in, before interest. -/
def LoanRecord.Obliged (loan : LoanRecord) : Prop := 0 < loan.amount + loan.totalYield

theorem RecordMove.obliged {w : World} {k : LoanBook} {op : Op} {old new : LoanRecord} (h : RecordMove w k op old new) :
    new.Obliged ↔ old.Obliged := by
  unfold LoanRecord.Obliged
  cases h with
  | kept | marked _ | flagged | executed _ _ _ | paidPartial _ _ => exact Iff.rfl
  | paid _ _ hp _ | settled _ _ hp _ => rw [hp.obligation.1, hp.obligation.2]
  | refinanced hsame _ _ _ => rw [hsame.amount, hsame.totalYield]

theorem RecordMove.withinTotal {s : State} {op : Op} {old new : LoanRecord}
    (h : RecordMove s.world s.store.book op old new) (hop : KeepsToTotal old.id s op) (hs : 0 ≤ old.accruedInterest)
    (hw : old.WithinTotal) : new.WithinTotal := by
  obtain ⟨hle, hsettled⟩ := hw
  cases h with
  | kept => exact ⟨hle, hsettled⟩
  | marked hactive => exact ⟨hle, fun hall => by rw [hsettled hall] at hactive; cases hactive⟩
  | flagged => exact ⟨hle, hsettled⟩
  | paid ho hst hp hopen =>
    -- below what is open after the discount, so below the total the record now shows
    have hpays := hop old ho rfl
    have hbelow : new.amountRepaid < new.owed := by
      rw [hp.amountRepaid, hp.owed]
      unfold LoanRecord.PaysInto LoanRecord.outstandingAt at hpays
      unfold LoanRecord.outstandingAt at hopen
      omega
    exact ⟨by omega, fun hall => by omega⟩
  | @settled borrower payment _ _ ho hst hp hall =>
    -- a payment of all that is open earns no discount
    have hpays := hop old ho rfl
    have hdiscount := discountAt_nonneg s.world.now payment hs
    refine ⟨?_, fun _ => hst⟩
    rw [hp.amountRepaid, hp.owed]
    unfold LoanRecord.PaysInto at hpays
    unfold LoanRecord.outstandingAt at hpays hall
    omega
  | paidPartial ho _ =>
    have hbelow := hop old ho rfl
    unfold LoanRecord.owed at hbelow
    unfold LoanRecord.WithinTotal LoanRecord.owed
    dsimp only
    omega
  | refinanced hsame hst hsum hinterest =>
    refine ⟨?_, fun _ => hst⟩
    unfold LoanRecord.owed
    rw [hinterest, hsame.amount, hsame.totalYield]
    omega
  | executed hexec ho hst =>
    refine ⟨hle, fun hall => absurd (hsettled hall) ?_⟩
    cases op with
    | executeSlashVote b | executePendingSlash b =>
      cases hexec
      exact hop old ho rfl
    | _ => cases hexec

/-- In a run whose calls all keep loan `id` to its total, the sum repaid on it is
within the total, and it is settled when the total is reached. -/
theorem repaid_within_total {h : List (State × Move)} {s : State} (hr : History h s) (id : Nat)
    (hok : Along (WhenDone (KeepsToTotal id)) h) {loan : LoanRecord} (hl : s.store.book.loan id = some loan)
    (hobliged : 0 < loan.amount + loan.totalYield) :
    loan.amountRepaid ≤ loan.amount + loan.totalYield + loan.accruedInterest ∧
      (loan.amount + loan.totalYield + loan.accruedInterest ≤ loan.amountRepaid → loan.status = .repaid) := by
  have hinv : ∀ loan, s.store.book.loan id = some loan → loan.Obliged → loan.WithinTotal := by
    refine History.inv (I := fun _ s => ∀ loan, s.store.book.loan id = some loan → loan.Obliged → loan.WithinTotal)
      (fun _ _ _ hl => by cases hl) (fun {h s c t} hr hi hd hp new hnew hob => ?_) (fun hi _ => hi)
        (fun hi _ _ => hi) hr hok
    rcases LoanBook.RecordsMove.effect hr.keyed (effect_of hd) id new hnew with
      ⟨old, ho, hm⟩ | ⟨-, hst, hunpaid, hinterest, -⟩
    · exact hm.withinTotal ((hr.keyed.stored ho).1.symm ▸ hp) (hr.solid id old ho).interest
        (hi old ho (hm.obliged.1 hob))
    · unfold LoanRecord.Obliged at hob
      unfold LoanRecord.WithinTotal LoanRecord.owed
      rw [hunpaid, hinterest]
      exact ⟨by omega, fun hall => by omega⟩
  exact hinv loan hl hobliged

/-- A payment through either entry point, ten days into the loan. -/
def loanPaidTwice : List Act :=
  requestedLoan ++ [.wait 864000, .call [10] (.repay 10 100000), .call [10] (.repayPartial 10 1000 100)]

theorem repaid_within_total_paidTwice :
    ((start.play loanPaidTwice).store.book.loan 2).any (fun loan => 0 < loan.amountRepaid) = true ∧
      ∀ loan, (start.play loanPaidTwice).store.book.loan 2 = some loan → 0 < loan.amount + loan.totalYield →
        loan.amountRepaid ≤ loan.amount + loan.totalYield + loan.accruedInterest ∧
          (loan.amount + loan.totalYield + loan.accruedInterest ≤ loan.amountRepaid → loan.status = .repaid) := by
  have hpartial : ∀ loan ∈ (start.play (loanPaidTwice.take 5)).store.book.getActiveLoanRecord 10,
      loan.id = 2 → loan.amountRepaid + 1000 < loan.owed := by decide +kernel
  have hrepay : ∀ loan ∈ (start.play (loanPaidTwice.take 4)).store.book.loanToRepay 10,
      loan.id = 2 → loan.discountAt 1864000 100000 = 0 ∨
        100000 < loan.outstandingAt 1864000 - loan.discountAt 1864000 100000 := by decide +kernel
  have hok : Along (WhenDone (KeepsToTotal 2)) (start.trace [] loanPaidTwice) := by
    refine List.forall_mem_cons.2 ⟨fun _ => hpartial, List.forall_mem_cons.2 ⟨fun _ => hrepay, ?_⟩⟩
    refine List.forall_mem_cons.2 ⟨trivial, List.forall_mem_cons.2 ⟨fun _ => trivial, ?_⟩⟩
    exact List.forall_mem_cons.2 ⟨fun _ => trivial, List.forall_mem_cons.2 ⟨fun _ => trivial, List.forall_mem_nil _⟩⟩
  exact ⟨by decide +kernel, fun loan hl hobliged => repaid_within_total (start_history _) 2 hok hl hobliged⟩

/-- The loan is paid more than it owes in one call of `repay_partial`. -/
def overpaidLoan : List Act := requestedLoan ++ [.call [10] (.repayPartial 10 600000 100)]

/-- One payment after ten days, less than what is open and more than what the milestones leave. -/
def discountedLoan : List Act := requestedLoan ++ [.wait 864000, .call [10] (.repay 10 510500)]

/-- The first loan is overpaid; the second is repaid in full by its own record. Both are still active. -/
theorem loan_repaid_beyond_total :
    (Reachable (start.play overpaidLoan) ∧ ((start.play overpaidLoan).store.book.loan 2).any (fun loan =>
      loan.amount + loan.totalYield + loan.accruedInterest < loan.amountRepaid ∧ loan.status = .active) = true) ∧
    Reachable (start.play discountedLoan) ∧ ((start.play discountedLoan).store.book.loan 2).any (fun loan =>
      loan.amount + loan.totalYield + loan.accruedInterest ≤ loan.amountRepaid ∧ loan.status = .active) = true :=
  ⟨⟨Reachable.script .., by decide +kernel⟩, Reachable.script .., by decide +kernel⟩

end QuorumCredit
