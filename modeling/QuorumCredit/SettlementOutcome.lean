import QuorumCredit.Solvency
/-!
# What a repayment leaves

The entries a settlement touches and the transfers to the vouchers, as `repay` leaves
them. The other ways to pay on a loan are held against this.
-/

open Host Function

namespace QuorumCredit

/-- What a payment leaves of a loan and of its borrower's entries, and what the
contract sent out meanwhile, to anyone but the borrower. -/
@[ext]
structure Outcome where
  status : Option LoanStatus
  activeLoan : Option Nat
  vouches : Option (List VouchRecord)
  withdrawalQueue : List QueuedWithdrawal
  repaymentCount : Nat
  payouts : Address → Address → Int

/-- What the transfers send from the contract, in each token, to anyone but the borrower. -/
def payoutsBy (w : World) (b : Address) (ts : List (Transfer Address Address)) : Address → Address → Int :=
  fun token voucher => if voucher = b then 0 else Bank.sent ts token w.contract voucher

/-- The loan with the id and the entries of its borrower `b` in `t`, and what was paid from `s` on. -/
def outcome (w : World) (b : Address) (id : Nat) (s t : Store) : Outcome where
  status := (t.book.loan id).map (·.status)
  activeLoan := t.book.activeLoan b
  vouches := t.vault.vouching.vouches b
  withdrawalQueue := t.vault.queue b
  repaymentCount := t.book.repaymentCount b
  payouts := payoutsBy w b t.vault.bank.log - payoutsBy w b s.vault.bank.log

/-- A payment of less than what is open changes none of it; one of all that is open
settles the loan, pays the queue and the vouchers, and removes their entries. -/
def repayOutcome (w : World) (b : Address) (loan : LoanRecord) (payment : Int) (s : Store) : Outcome :=
  if payment < loan.outstandingAt w.now then { outcome w b loan.id s s with status := some .active }
  else
    { status := some .repaid, activeLoan := none, vouches := none, withdrawalQueue := []
      repaymentCount := s.book.repaymentCount b + 1
      payouts := payoutsBy w b (s.vault.queueTransfers w b ++
        duePayouts w loan.tokenAddress (s.locked loan.id) (s.vault.settledRecords loan.tokenAddress b)) }

section

variable {w : World} {b : Address}

theorem payoutsBy_append (ts us : List (Transfer Address Address)) :
    payoutsBy w b (ts ++ us) = payoutsBy w b ts + payoutsBy w b us := by
  funext token voucher
  simp only [payoutsBy, Pi.add_apply, Bank.sent_append]
  split
  · rfl
  · rfl

/-- The borrower's own payment is not a payout, nor is what the borrower receives. -/
theorem payoutsBy_own {ts : List (Transfer Address Address)}
    (h : ∀ x ∈ ts, x.dst = b ∨ x.src = b ∧ x.dst = w.contract) : payoutsBy w b ts = 0 := by
  funext token voucher
  simp only [payoutsBy, Pi.zero_apply]
  split
  case isTrue => rfl
  case isFalse hother =>
    apply Bank.sent_eq_zero
    rintro x hx ⟨-, hsrc, hdst⟩
    rcases h x hx with hb | ⟨hb, hcontract⟩
    · exact hother (hdst.symm.trans hb)
    · -- the borrower is the contract, and pays itself
      exact hother (hdst.symm.trans (hcontract.trans (hsrc.symm.trans hb)))

theorem payoutsBy_reverse (ts : List (Transfer Address Address)) :
    payoutsBy w b ts.reverse = payoutsBy w b ts := by
  induction ts with
  | nil => rfl
  | cons t ts ih =>
    rw [List.reverse_cons, payoutsBy_append, ih, add_comm, ← payoutsBy_append, List.singleton_append]

end

/-! ## What `repay` leaves -/

theorem payoutsBy_move {w : World} {b token : Address} {amount : Int} {bank : Ledger} :
    payoutsBy w b (bank.move token b w.contract amount).log = payoutsBy w b bank.log := by
  change payoutsBy w b ([⟨token, b, w.contract, amount⟩] ++ bank.log) = _
  rw [payoutsBy_append, payoutsBy_own, zero_add]
  exact List.forall_mem_singleton.2 (.inr ⟨rfl, rfl⟩)

/-- What the contract sends in a batch is added to what it has sent. -/
theorem payoutsBy_moves {w : World} {b : Address} (bank : Ledger) (ts : List (Transfer Address Address)) :
    payoutsBy w b (bank.moves ts).log = payoutsBy w b ts + payoutsBy w b bank.log := by
  rw [Bank.moves_log, payoutsBy_append, payoutsBy_reverse]

/-- What a payment out of the borrower's account leaves when nothing is sent out. -/
theorem outcome_kept {w : World} {b token : Address} {id : Nat} {amount : Int} {s t : Store}
    (hpointer : t.book.activeLoan b = s.book.activeLoan b)
    (hcount : t.book.repaymentCount b = s.book.repaymentCount b) (hvouching : t.vault.vouching = s.vault.vouching)
    (hbank : t.vault.bank = s.vault.bank.move token b w.contract amount) :
    outcome w b id s t = { outcome w b id s s with status := (t.book.loan id).map (·.status) } := by
  have hpaid : payoutsBy w b t.vault.bank.log = payoutsBy w b s.vault.bank.log := by
    rw [hbank, payoutsBy_move]
  simp only [outcome, Vault.queue, hpointer, hcount, hvouching, hpaid]

theorem bonus_not_out (w : World) (b : Address) (loan : LoanRecord) (bank : Ledger) :
    payoutsBy w b (bonusTransfers w loan b bank) = 0 := by
  apply payoutsBy_own
  intro x hx
  rw [bonusTransfers] at hx
  split at hx
  case isTrue =>
    rw [List.mem_singleton.1 hx]
    exact .inl rfl
  case isFalse => cases hx

/-- What the settlement at the end of `repay` pays out: the queue, and what is due to the vouchers. -/
theorem payoutsBy_settled {w : World} {b : Address} {x : Vault} {loan : LoanRecord}
    {dist : List YieldDistributionEntry} : payoutsBy w b (x.settled w loan b dist 0).bank.log =
      payoutsBy w b (x.queueTransfers w b ++ duePayouts w loan.tokenAddress dist
        (x.settledRecords loan.tokenAddress b)) + payoutsBy w b x.bank.log := by
  simp only [Vault.settled, Vault.paidOut, Vault.voucherPayouts, payouts_zero, payoutsBy_moves, bonus_not_out,
    Vault.drained_bank, payoutsBy_append]
  funext token voucher
  simp only [Pi.add_apply, Pi.zero_apply]
  omega

/-- The vault that a payment on an active loan leaves. -/
theorem repay_vault {s : State} (hs : s.store.book.Solid) {signers : List Address} {b : Address} {payment : Int}
    {loan : LoanRecord} {t : Store} (ho : s.store.book.loanToRepay b = some loan)
    (hstored : s.store.book.loan loan.id = some loan) (hactive : loan.status = .active)
    (hd : exec ⟨signers, .repay b payment⟩ s = .ok t) :
    (payment < loan.outstandingAt s.world.now → t.vault = s.store.vault.takes s.world loan b payment) ∧
      (payment = loan.outstandingAt s.world.now → t.vault = (s.store.vault.takes s.world loan b payment).settled s.world
        (loan.paidAt s.world.now payment) b (s.store.locked loan.id) 0) := by
  have hopen : loan.status ≠ .defaulted := by
    rw [hactive]
    decide
  have hgoes : Goes (repay b payment) ⟨s.world, signers⟩ s.store fun _ t' => t.vault = t'.vault :=
    (goes_of_exec hd).mono fun _ _ ht => congrArg Store.vault ht.symm
  obtain ⟨-, -, hto⟩ := (goes_repay_open ho hopen (hs _ _ hstored) fun x => t.vault = x).1 hgoes
  exact ⟨hto.stillOpen, fun hall => (hto.completes hall).2⟩

/-- Every payment that `repay` takes on an active loan leaves `repayOutcome`. -/
theorem repay_outcome {s : State} (hk : s.store.book.Keyed) (hs : s.store.book.Solid) {signers : List Address}
    {b : Address} {payment : Int} {loan : LoanRecord} {t : Store}
    (ho : s.store.book.getActiveLoanRecord b = some loan) (hactive : loan.status = .active)
    (hd : exec ⟨signers, .repay b payment⟩ s = .ok t) :
    outcome s.world b loan.id s.store t = repayOutcome s.world b loan payment s.store := by
  have hrepay := loanToRepay_of_active ho
  obtain ⟨htaken, hsettled⟩ := repay_vault hs hrepay (hk.loan_to_repay hrepay).1 hactive hd
  have hunique : ∀ {old}, s.store.book.loanToRepay b = some old → old = loan := fun h =>
    Option.some.inj (h.symm.trans hrepay)
  have he := effect_of hd
  generalize hbook : t.book = k' at he
  cases he with
  | looked h => cases h
  | @paid _ _ old new ho' hsame hst hp hopen =>
    obtain rfl := hunique ho'
    have hstatus : (t.book.loan old.id).map (·.status) = some .active := by
      rw [hbook, LoanBook.setLoan_loan, hsame.id, update_self]
      exact congrArg some (hst.trans hactive)
    rw [repayOutcome, if_pos hopen, ← hstatus]
    apply outcome_kept
    · rw [hbook]
      rfl
    · rw [hbook]
      rfl
    · rw [htaken hopen]
      rfl
    · rw [htaken hopen]
      rfl
  | recovered ho' hdefaulted =>
    obtain rfl := hunique ho'
    rw [hactive] at hdefaulted
    cases hdefaulted
  | @closed _ _ old new ho' hlive hsame hst hp hall =>
    obtain rfl := hunique ho'
    have hvault := hsettled hall
    have htoken : (old.paidAt s.world.now payment).tokenAddress = old.tokenAddress := accrueInterest_token _ _
    generalize old.paidAt s.world.now payment = paid at hvault htoken
    rw [repayOutcome, if_neg hall.not_lt]
    ext1
    · change (t.book.loan old.id).map (·.status) = _
      rw [hbook, LoanBook.setLoan_loan, hsame.id, update_self]
      exact congrArg some hst
    · change t.book.activeLoan b = none
      rw [hbook]
      exact update_self ..
    · change t.vault.vouching.vouches b = none
      rw [hvault]
      exact update_self ..
    · change t.vault.queues b = []
      rw [hvault]
      have hqueues : (((s.store.vault.takes s.world old b payment).settled s.world paid b
          (s.store.locked old.id) 0)).queues =
            ((s.store.vault.takes s.world old b payment).drained s.world b).queues :=
        Vouching.view_earnAll (f := Vouching.withdrawalQueue)
          ((s.store.vault.takes s.world old b payment).drained s.world b).vouching _ _
      rw [hqueues, Vault.drained_queues, update_self]
    · change t.book.repaymentCount b = _
      rw [hbook]
      exact update_self ..
    · change payoutsBy s.world b t.vault.bank.log - _ = _
      rw [hvault, payoutsBy_settled, htoken]
      change _ + payoutsBy s.world b (s.store.vault.bank.move old.tokenAddress b s.world.contract payment).log - _ = _
      rw [payoutsBy_move, add_sub_cancel_right]
      rfl

end QuorumCredit
