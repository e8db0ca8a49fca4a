import QuorumCredit.Principal
import QuorumCredit.Custody
import QuorumCredit.Eligibility
/-!
# What covers the stakes

The contract lends out what the vouchers have staked. A loan that is paid back
covers the stakes again, with its yield for the yields it pays; a loan that
defaults is written off before its vouches are slashed, and what a slash keeps is
paid out by the administration or to borrowers who appeal. `netLoss` counts all of
this, call by call, and the stakes in a token are covered by what the contract
holds, what is out on active loans, and what was lost.
-/

open Host Function

namespace QuorumCredit

/-! ## What the calls take out -/

/-- The calls that pay out of what the slashes have kept. -/
def Op.paysOut : Op → Bool
  | .reverseSlash .. | .releaseSlashEscrow .. | .slashTreasury .. | .withdrawSlashTreasury .. | .voteAppeal ..
  | .finalizeAppeal .. => true
  | _ => false

section Calls

variable {ctx : Context} {s : Store}

/-- The account is down in the token by at most the amount. -/
def Ledger.DownBy (bank bank' : Ledger) (c t : Address) (amount : Int) : Prop :=
  ∀ token, bank.balance token c - (if t = token then amount else 0) ≤ bank'.balance token c

theorem disburseLoan_bank (loan : LoanRecord) :
    Yields (disburseLoan loan) ctx s fun _ t => s.bank.DownBy t.bank ctx.contract loan.tokenAddress loan.amount := by
  unfold disburseLoan
  simp only [yields_steps, yields_parts, yields_onBook, yields_pay]
  refine (collectInsuranceFee_nonneg _ _).mono fun fee terms hfee => ?_
  intro hpay _
  refine (yields_true _ _ _).mono fun _ _ _ => ?_
  intro token
  have hle : satI128 (loan.amount - fee) ≤ loan.amount := by
    simp only [satI128, i128Min, i128Max] at hpay ⊢
    omega
  have hdown := s.bank.le_balance_move loan.tokenAddress token ctx.contract loan.borrower ctx.contract hpay
  change _ ≤ (s.bank.move loan.tokenAddress ctx.contract loan.borrower (satI128 (loan.amount - fee))).balance token
    ctx.contract
  split
  case isTrue htoken =>
    rw [if_pos htoken] at hdown
    omega
  case isFalse htoken =>
    rw [if_neg htoken] at hdown
    exact hdown

set_option synthInstance.maxSize 200000

instance (borrower : Address) (amount threshold : Int) (token : Address) :
    Keeps Store.bank (admitLoan borrower amount threshold token) := by
  unfold admitLoan; infer_instance

theorem requestLoan_bank (borrower : Address) (amount threshold : Int) (purpose : String) (token : Address) :
    Yields (requestLoan borrower amount threshold purpose token) ctx s fun _ t =>
      s.bank.DownBy t.bank ctx.contract token amount := by
  unfold requestLoan
  simp only [yields_steps, yields_u64]
  refine yields_keeps Store.bank fun _ s₁ h₁ => ?_
  refine yields_keeps Store.bank fun _ s₂ h₂ => ?_
  refine yields_keeps Store.bank fun _ s₃ h₃ _ => ?_
  refine yields_keeps Store.bank fun _ s₄ h₄ => ?_
  refine yields_keeps Store.bank fun _ s₅ h₅ => ?_
  rw [← h₁, ← h₂, ← h₃, ← h₄, ← h₅]
  exact disburseLoan_bank _

theorem issuePool_bank (deadline : Nat) (pool : List (Address × Int)) :
    Yields (issuePool deadline pool) ctx s fun _ t => ∀ token,
      s.bank.balance token ctx.contract - pooledIn token ctx.config.token pool ≤ t.bank.balance token ctx.contract := by
  induction pool generalizing s with
  | nil => simp [issuePool, pooledIn]
  | cons entry rest ih =>
    simp only [issuePool, issuePoolLoan, yields_steps, yields_parts, yields_nextLoanId, yields_i128, yields_onBook,
      yields_pay]
    intro _ _ hpos _
    refine ih.mono fun _ t ht token => ?_
    have hrest := ht token
    have hfirst := s.bank.le_balance_move ctx.config.token token ctx.contract entry.1 ctx.contract hpos
    change (s.bank.move ctx.config.token ctx.contract entry.1 entry.2).balance token ctx.contract - _ ≤ _ at hrest
    have hsplit : pooledIn token ctx.config.token (entry :: rest) =
        (if ctx.config.token = token then entry.2 else 0) + pooledIn token ctx.config.token rest := by
      unfold pooledIn
      split
      · rfl
      · rfl
    omega

theorem createLoanPool_bank (signers borrowers : List Address) (amounts : List Int) :
    Yields (createLoanPool signers borrowers amounts) ctx s fun _ t => ∀ token,
      s.bank.balance token ctx.contract - pooledIn token ctx.config.token (borrowers.zip amounts) ≤
        t.bank.balance token ctx.contract := by
  unfold createLoanPool
  simp only [yields_steps, yields_u64]
  refine yields_keeps Store.bank fun _ s₁ h₁ _ _ _ => ?_
  refine yields_keeps Store.bank fun _ s₂ h₂ _ => ?_
  rw [← h₁, ← h₂]
  refine (issuePool_bank _ _).mono fun _ s₃ h₃ => ?_
  refine yields_keeps Store.bank fun _ t ht => ?_
  rw [ht]
  exact h₃

theorem outstandingTerms_spec (old : LoanRecord) (newAmount : Int) (t : Terms) :
    Yields (outstandingTerms old newAmount) ctx t fun terms _ =>
      terms.outstanding = old.amount + old.totalYield - old.amountRepaid ∧ terms.outstanding ≤ newAmount := by
  simp only [outstandingTerms, yields_steps, yields_i128]
  intro _ _ _ _ hle _
  exact ⟨trivial, hle⟩

theorem requireEligible_spec (borrower token : Address) (newAmount newThreshold : Int) (terms : RefinanceTerms)
    (x : Vouching) : Yields (requireEligible borrower token newAmount newThreshold terms) ctx x fun terms' _ =>
      terms'.outstanding = terms.outstanding := by
  simp only [requireEligible, yields_steps]
  iterate 4 refine (yields_true _ _ _).mono fun _ _ _ => ?_
  exact fun _ => trivial

theorem disburseNet_bank (borrower token : Address) (newAmount outstanding : Int) (bank : Ledger) :
    Yields (disburseNet borrower token newAmount outstanding) ctx bank fun _ bank' =>
      bank.DownBy bank' ctx.contract token (max 0 (newAmount - outstanding)) := by
  simp only [disburseNet, yields_steps, yields_i128, yields_ite, yields_pay]
  intro _
  refine ⟨fun hpos _ _ t => ?_, fun hnone t => ?_⟩
  · rw [max_eq_right hpos.le]
    exact bank.le_balance_move token t ctx.contract borrower ctx.contract hpos.le
  · rw [max_eq_left (not_lt.1 hnone), ite_self, Int.sub_zero]

theorem refinanceLoan_bank (borrower : Address) (newAmount newThreshold : Int) (newToken : Address) :
    Yields (refinanceLoan borrower newAmount newThreshold newToken) ctx s fun _ t =>
      ∃ old, s.book.getActiveLoanRecord borrower = some old ∧
        old.amount + old.totalYield - old.amountRepaid ≤ newAmount ∧
        s.bank.DownBy t.bank ctx.contract newToken (newAmount - (old.amount + old.totalYield - old.amountRepaid)) := by
  unfold refinanceLoan
  simp only [yields_bind, yields_look, yields_orFail, lift_eq_zoom, lift_self]
  refine yields_keeps₂ Store.book Store.bank fun _ s₁ h₁ h₁' => ?_
  refine yields_keeps₂ Store.book Store.bank fun _ s₂ h₂ h₂' => ?_
  refine yields_keeps₂ Store.book Store.bank fun _ s₃ h₃ h₃' => ?_
  intro old hold
  rw [h₃, h₂, h₁] at hold
  refine (yields_zoom _ _ _ _).2 ((outstandingTerms_spec old newAmount _).mono fun terms _ hterms => ?_)
  obtain ⟨hout, hle⟩ := hterms
  refine yields_keeps Store.bank fun _ s₄ h₄ => ?_
  simp only [yields_zoom]
  refine (requireEligible_spec _ _ _ _ _ _).mono fun terms' _ hterms' => ?_
  refine (yields_true _ _ _).mono fun loan _ _ => ?_
  refine (disburseNet_bank _ _ _ _ _).mono fun _ bank hbank => ?_
  refine (yields_true _ _ _).mono fun _ _ _ => ?_
  refine ⟨old, hold, hout ▸ hle, ?_⟩
  rw [hterms', hout, max_eq_right (by omega)] at hbank
  rw [← h₁', ← h₂', ← h₃', ← show s₄.bank = s₃.bank from h₄]
  exact hbank

/-- The payment of a borrower, which is not the contract. -/
theorem repayPartial_bank (borrower : Address) (payment : Int) (token : Address) :
    Yields (repayPartial borrower payment token) ctx s fun _ t =>
      borrower ≠ ctx.contract ∧ t.bank = s.bank.move token borrower ctx.contract payment := by
  unfold repayPartial
  simp only [yields_steps, yields_requireAuth, yields_requireAllowedToken, yields_i128]
  rintro ⟨-, hcaller⟩
  refine yields_keeps Store.bank fun _ s₁ h₁ => ?_
  refine yields_keeps Store.bank fun _ s₂ h₂ => ?_
  refine yields_keeps Store.bank fun _ s₃ h₃ => ?_
  intro _ _ _ _
  simp only [yields_parts, yields_collect, yields_onBook]
  intro _ _ _
  refine ⟨hcaller, ?_⟩
  rw [← h₁, ← h₂, ← h₃]
  rfl

theorem repay_caller (borrower : Address) (payment : Int) :
    Yields (repay borrower payment) ctx s fun _ _ => borrower ≠ ctx.contract := by
  simp only [repay, repayLoan_eq, repayGuards, yields_steps, yields_requireAuth]
  refine (yields_true _ _ _).mono ?_
  rintro - s₁ - ⟨-, hcaller⟩
  iterate 6 refine (yields_true _ _ _).mono fun _ _ _ => ?_
  exact hcaller

theorem dispatch_keeps_bank {op : Op} (honly : op.onlyLooks = true) (hstakes : op.stakes = false)
    (hpays : op.paysOut = false) : Keeps Store.bank (dispatch op) := by
  cases op
  case vouch | batchVouch | increaseStake | decreaseStake | withdrawVouch | requestWithdrawal | partialWithdraw
      | transferVouch | splitVouch | rotateToNewBorrower => cases hstakes
  case reverseSlash | releaseSlashEscrow | slashTreasury | withdrawSlashTreasury | voteAppeal | finalizeAppeal =>
    cases hpays
  case requestLoan | repay | repayPartial | refinanceLoan | createLoanPool | slash | autoSlash | claimExpiredLoan
      | executeSlashVote | executePendingSlash => cases honly
  all_goals
    dsimp only [dispatch]
    infer_instance

end Calls

/-! ## Settlements -/

instance : OffYields Vouching.withdrawalQueue where

section

variable {x : Vault} {w : World} {c b : Address} (token : Address)

theorem Vault.drained_queues (x : Vault) (w : World) (b : Address) : (x.drained w b).queues = update x.queues b [] := by
  unfold drained
  split
  case isTrue h =>
    rw [← show x.queues b = [] from h, update_eq_self]
  case isFalse => rfl

/-- The queue pays records it takes out, and the fees that were queued. -/
theorem Vault.owed_drained (hx : x.InOrder) (hmatch : FeesMatch (x.queue b)) :
    (x.drained w b).owed c token ≤ x.owed c token := by
  have hstakes := hx.staked b
  obtain ⟨hpays, hpaid⟩ := outgo_queuePayments_le w token hstakes (x.queue b)
  have hfees := outgo_feePayments_le w token (hx.queues.fees b) hmatch fun v hv =>
    hstakes v ((x.unqueued_sublist b).subset hv)
  have htransfers : ∀ p ∈ x.queueTransfers w b, 0 ≤ p.amount := by
    intro p hp
    rcases List.mem_append.1 hp with hp | hp
    · exact hpays p hp
    · exact feePayments_nonneg w _ _ p hp
  have hbank := x.bank.le_balance_moves htransfers token c
  rw [← Vault.drained_bank, Vault.queueTransfers, Bank.outgo_append] at hbank
  rw [Vault.owed_update hx (x.drained_records w b) (x.drained_queues w b)]
  have hnone : feesIn token [] = 0 := rfl
  change Bank.outgo (queuePayments w (x.vouching.vouchesOf b) (x.queue b)) token + plainStake token (x.unqueued b) ≤
    plainStake token (x.records b) at hpaid
  change Bank.outgo (feePayments w (x.queue b) (x.unqueued b)) token ≤ feesIn token (x.queues b) at hfees
  omega

theorem Vault.InOrder.drained (hx : x.InOrder) (w : World) (b : Address) : (x.drained w b).InOrder := by
  refine ⟨?_, fun a => ?_, ?_⟩
  · rw [x.drained_records w b]
    exact hx.records.update b _
  · rw [x.drained_records w b]
    exact forall_update hx.wellFormed ((hx.wellFormed b).sublist (x.unqueued_sublist b)) a
  · rw [x.drained_queues w b]
    exact hx.queues.update b (List.forall_mem_nil _)

/-- The vouchers of a repaid loan are paid out of what was owed to them, but for the yields and the bonus. -/
theorem Vault.owed_settled (hx : x.InOrder) (hmatch : FeesMatch (x.queue b)) (loan : LoanRecord)
    (dist : List YieldDistributionEntry) :
    (x.settled w loan b dist 0).owed c token ≤ x.owed c token - plainStake token (x.unqueued b) +
      Bank.outgo (duePayouts w loan.tokenAddress dist (x.settledRecords loan.tokenAddress b)) token +
      Bank.outgo (bonusTransfers w loan b (x.paidOut w loan b dist 0)) token := by
  have hdrained : (x.drained w b).owed c token ≤ x.owed c token := Vault.owed_drained token hx hmatch
  have hrecords : (x.settled w loan b dist 0).records = update (x.drained w b).records b [] := by
    change (((x.drained w b).vouching.earnAll _ _).removeVouches b).vouchesOf = _
    rw [Vouching.removeVouches_records, Vouching.view_earnAll (f := Vouching.vouchesOf)]
    rfl
  have hqueues : (x.settled w loan b dist 0).queues = (x.drained w b).queues :=
    Vouching.view_earnAll (f := Vouching.withdrawalQueue) (x.drained w b).vouching _ _
  have hpositive : ∀ p ∈ duePayouts w loan.tokenAddress dist (x.settledRecords loan.tokenAddress b), 0 ≤ p.amount :=
    fun p hp => (duePayouts_spec w loan.tokenAddress dist _ p hp).2
  have hpaid := (x.drained w b).bank.le_balance_moves hpositive token c
  have hbonus := (x.paidOut w loan b dist 0).le_balance_moves
    (fun p hp => (bonusTransfers_spec w loan b (x.paidOut w loan b dist 0) p hp).2) token c
  have hpayouts : x.paidOut w loan b dist 0 = (x.drained w b).bank.moves
      (duePayouts w loan.tokenAddress dist (x.settledRecords loan.tokenAddress b)) := by
    rw [Vault.paidOut, Vault.voucherPayouts, payouts_zero]
  rw [← hpayouts] at hpaid
  rw [Vault.owed_rewrite (hx.drained w b) hrecords hqueues]
  have hunqueued : (x.drained w b).records b = x.unqueued b := by rw [x.drained_records w b, update_self]
  have hnone : plainStake token [] = 0 := rfl
  change ((x.paidOut w loan b dist 0).balance token c - _ ≤ (x.settled w loan b dist 0).bank.balance token c) at hbonus
  rw [hunqueued]
  omega

/-- The payment is on top. -/
theorem Vault.owed_takes (hb : b ≠ w.contract) (loan : LoanRecord) (n : Int) :
    (x.takes w loan b n).owed w.contract token = x.owed w.contract token -
      if loan.tokenAddress = token then n else 0 := by
  have hbalance := Bank.balance_paid_in x.bank loan.tokenAddress token hb n
  have howed : (x.takes w loan b n).owed w.contract token = _ := Vault.owed_kept (x := x) rfl rfl
  rw [howed]
  change _ - ((x.bank.move loan.tokenAddress b w.contract n).balance token w.contract - _) = _
  omega

theorem feesMatch_nil : FeesMatch [] := by
  intro first hfirst
  cases hfirst

theorem unqueued_nil (queue : List QueuedWithdrawal) : unqueued [] queue = [] := by
  induction queue with
  | nil => rfl
  | cons queued queue ih => exact ih

theorem queuePayments_nil (w : World) (queue : List QueuedWithdrawal) : queuePayments w [] queue = [] := by
  induction queue with
  | nil => rfl
  | cons queued queue ih => exact ih

theorem feePayments_nil (w : World) (queue : List QueuedWithdrawal) : feePayments w queue [] = [] := by
  unfold feePayments
  split
  · rfl
  · rfl

theorem Vault.seized_queues (x : Vault) (w : World) (t : Address) (bps : Int) (b : Address) :
    (x.seized w t bps b).queues = x.queues := by
  have hstruck : (x.vouching.strikeAll bps (inToken t (x.records b))).withdrawalQueue = x.queues :=
    Vouching.view_strikeAll (f := Vouching.withdrawalQueue) ..
  unfold Vault.seized
  dsimp only
  split
  · exact hstruck
  · exact hstruck

/-- Where all stakes are in the loan's token, an approved slash keeps its share of them. -/
theorem Vault.owed_executed (hx : x.InOrder) {t : Address} (bps : Int) (htokens : ∀ v ∈ x.records b, v.token = t) :
    ((x.seized w t bps b).drained w b).owed c token ≤ x.owed c token - keptStake token bps (x.records b) := by
  have hforeign : foreign t (x.records b) = [] := by
    refine List.filter_eq_nil_iff.2 fun v hv => ?_
    simp [htokens v hv]
  have hseized : (x.seized w t bps b).records = update x.records b [] := by rw [Vault.seized_records, hforeign]
  have hnone : (x.seized w t bps b).records b = [] := by rw [hseized, update_self]
  have hunqueued : (x.seized w t bps b).unqueued b = [] := by
    change QuorumCredit.unqueued ((x.seized w t bps b).records b) _ = []
    rw [hnone, unqueued_nil]
  have htransfers : (x.seized w t bps b).queueTransfers w b = [] := by
    unfold Vault.queueTransfers
    rw [hunqueued, feePayments_nil, List.append_nil]
    change queuePayments w ((x.seized w t bps b).records b) _ = []
    rw [hnone, queuePayments_nil]
  have hrecords : ((x.seized w t bps b).drained w b).records = update x.records b [] := by
    rw [Vault.drained_records, hunqueued, hseized, update_idem]
  have hqueues : ((x.seized w t bps b).drained w b).queues = update x.queues b [] := by
    rw [Vault.drained_queues, Vault.seized_queues]
  have hbank : ((x.seized w t bps b).drained w b).bank = x.bank.moves (remaindersAt w t bps (x.records b)) := by
    rw [Vault.drained_bank, htransfers, Bank.moves_nil]
    change x.bank.moves (seizures w t bps (x.records b)) = _
    rw [seizures_eq w bps htokens]
  have hpaid := x.bank.le_balance_moves (remaindersAt_nonneg w t bps (x.records b)) token c
  have hkept := outgo_remaindersAt w token t bps htokens
  have hfees : 0 ≤ feesIn token (x.queues b) := feesIn_nonneg (hx.queues.fees b)
  rw [Vault.owed_update hx hrecords hqueues, hbank]
  have hstake : plainStake token [] = 0 := rfl
  have hfee : feesIn token [] = 0 := rfl
  omega

end

/-! ## What is lost -/

/-- What has left account `c`. -/
def Store.outflow (s t : Store) (c token : Address) : Int := s.bank.balance token c - t.bank.balance token c

/-- What it costs to settle a repaid loan: the yields and the bonus, less what
the payment brings beyond the principal. -/
def Store.settlementLoss (s : Store) (w : World) (b : Address) (n : Int) (loan : LoanRecord) : Int :=
  let settled := s.vault.settledRecords loan.tokenAddress b
  let bank := (s.vault.takes w loan b n).paidOut w (loan.paidAt w.now n) b (s.locked loan.id) 0
  Bank.outgo (duePayouts w loan.tokenAddress (s.locked loan.id) settled) loan.tokenAddress - stakeSum settled +
    Bank.outgo (bonusTransfers w (loan.paidAt w.now n) b bank) loan.tokenAddress -
      (n - loan.principalIn loan.tokenAddress)

/-- What a call that goes through loses of the token; less than nothing where it gains. -/
def Op.loss (w : World) (s t : Store) (token : Address) : Op → Int
  | .repay b n =>
    match s.book.loanToRepay b with
    | some loan =>
      if loan.status = .defaulted then s.outflow t w.contract token
      else if n = loan.outstandingAt w.now ∧ loan.tokenAddress = token then s.settlementLoss w b n loan
      else 0
    | none => 0
  | .refinanceLoan b _ _ _ =>
    match s.book.getActiveLoanRecord b with
    | some old =>
      if old.tokenAddress = token then old.principalIn token - (old.amount + old.totalYield - old.amountRepaid) else 0
    | none => 0
  | .slash _ b | .autoSlash b => -keptStake token w.config.slashBps (s.records b)
  | .executeSlashVote b | .executePendingSlash b =>
    principalOf token (s.book.getActiveLoanRecord b) - keptStake token (slashRate w s.book b) (s.records b)
  | op =>
    if op.paysOut = true then s.outflow t w.contract token else s.book.writtenOff token w.now (op.looksAt w s.book)

/-- What a step loses of the token. -/
def stepLoss (token : Address) : State × Move → Int
  | (s, .call c) =>
    match exec c s with
    | .ok t => c.op.loss s.world s.store t token
    | .error _ => 0
  | (s, .elsewhere _ _ bank) =>
    s.store.bank.balance token s.world.contract - bank.balance token s.world.contract

/-- What was lost of the token all along. -/
def netLoss (token : Address) (h : List (State × Move)) : Int := (h.map (stepLoss token)).sum

/-- The call finds the loan, the vouches and the queued fees it settles in one token. -/
def Op.oneToken (s : State) : Op → Prop
  | .repay b _ => FeesMatch (s.store.vault.queue b)
  | .repayPartial b _ token | .refinanceLoan b _ _ token =>
    ∀ loan, s.store.book.getActiveLoanRecord b = some loan → token = loan.tokenAddress
  | .slash _ b | .autoSlash b | .claimExpiredLoan b => ∀ v ∈ s.store.records b, v.token = s.world.config.token
  | .executeSlashVote b | .executePendingSlash b =>
    ∀ loan, s.store.book.getActiveLoanRecord b = some loan → ∀ v ∈ s.store.records b, v.token = loan.tokenAddress
  | _ => True

/-- What is owed beyond what is held and lent. -/
noncomputable def Store.shortfall (s : Store) (c token : Address) : Int := s.vault.owed c token - s.book.lent token

section

variable {w : World} {s t : Store} {op : Op} (token : Address)

/-- A settlement leaves a shortfall by no more than its loss. -/
theorem Resolved.shortfall (h : Resolved w s t op) (he : Effect w s.book op t.book) (hk : s.book.Keyed)
    (hx : s.vault.InOrder) (hone : op.oneToken ⟨w, s⟩) (hcaller : ∀ b n, op = .repay b n → b ≠ w.contract) :
    t.shortfall w.contract token ≤ s.shortfall w.contract token + op.loss w s t token := by
  unfold Store.shortfall
  cases h with
  | @paid b n loan ho hstatus hopen ht =>
    obtain ⟨hpos, hlent⟩ := he.lent_repaid token hk ho
    have hloss : (Op.repay b n).loss w s t token = 0 := by
      simp only [Op.loss, ho, hstatus, if_false, hopen.ne, false_and]
    rw [LoanRecord.takenOff, if_pos hopen] at hlent
    rw [hloss, hlent, ht, Vault.owed_takes token (hcaller b n rfl)]
    by_cases htoken : loan.tokenAddress = token
    · simp only [htoken, and_true, if_true]
      split
      · omega
      · omega
    · simp only [htoken, and_false, if_false]
      omega
  | @closed b n loan ho hstatus hall ht =>
    obtain ⟨hpos, hlent⟩ := he.lent_repaid token hk ho
    have hpaidToken : (loan.paidAt w.now n).tokenAddress = loan.tokenAddress := accrueInterest_token w.now loan
    have htaken : (s.vault.takes w loan b n).InOrder := ⟨hx.records, hx.wellFormed, hx.queues⟩
    have howed := Vault.owed_settled (w := w) (c := w.contract) token htaken hone (loan.paidAt w.now n)
      (s.locked loan.id)
    rw [hpaidToken, Vault.owed_takes token (hcaller b n rfl)] at howed
    rw [LoanRecord.takenOff, if_neg hall.not_lt] at hlent
    rw [hlent, ht]
    by_cases htoken : loan.tokenAddress = token
    · subst htoken
      have hloss : (Op.repay b n).loss w s t loan.tokenAddress = s.settlementLoss w b n loan := by
        simp only [Op.loss, ho, hstatus, if_false, hall, and_self, if_true]
      rw [hloss]
      unfold Store.settlementLoss
      dsimp only
      rw [if_pos rfl] at howed
      have hsettled : stakeSum (s.vault.settledRecords loan.tokenAddress b) =
          plainStake loan.tokenAddress ((s.vault.takes w loan b n).unqueued b) := rfl
      have hsame : (s.vault.takes w loan b n).settledRecords loan.tokenAddress b =
          s.vault.settledRecords loan.tokenAddress b := rfl
      rw [hsame] at howed
      omega
    · have hloss : (Op.repay b n).loss w s t token = 0 := by
        simp only [Op.loss, ho, hstatus, if_false, htoken, and_false]
      have hpayouts : Bank.outgo (duePayouts w loan.tokenAddress (s.locked loan.id)
          ((s.vault.takes w loan b n).settledRecords loan.tokenAddress b)) token = 0 := by
        refine Bank.outgo_eq_zero fun p hp => ?_
        rw [(duePayouts_spec w loan.tokenAddress _ _ p hp).1]
        exact htoken
      have hbonus (bank : Ledger) : Bank.outgo (bonusTransfers w (loan.paidAt w.now n) b bank) token = 0 := by
        refine Bank.outgo_eq_zero fun p hp => ?_
        rw [(bonusTransfers_spec w _ b bank p hp).1, hpaidToken]
        exact htoken
      have hunqueued : 0 ≤ plainStake token ((s.vault.takes w loan b n).unqueued b) :=
        plainStake_nonneg token fun v hv => hx.staked b v ((s.vault.unqueued_sublist b).subset hv)
      rw [hloss, LoanRecord.principalIn_other htoken]
      rw [hpayouts, hbonus, if_neg htoken] at howed
      omega
  | @recovered b n loan ho hstatus ht =>
    obtain ⟨-, hlent⟩ := he.lent_repaid token hk ho
    have hinactive : loan.status ≠ .active := by simp [hstatus]
    have hlent : t.book.lent token = s.book.lent token := by
      rw [hlent, LoanRecord.takenOff, LoanRecord.principalIn_inactive token hinactive]
      simp [hinactive]
    have hloss : (Op.repay b n).loss w s t token = s.outflow t w.contract token := by
      simp only [Op.loss, ho, hstatus, if_true]
    have howed : t.vault.owed w.contract token = _ :=
      Vault.owed_kept (x := s.vault) (congrArg Vouching.vouchesOf ht) (congrArg Vouching.withdrawalQueue ht)
    rw [hloss, hlent, howed]
    change _ ≤ _ + (s.vault.bank.balance token w.contract - t.vault.bank.balance token w.contract)
    omega
  | @slashed op b loan hslash _ _ _ ht =>
    have hlent : t.book.lent token = s.book.lent token := he.lent_flagged token hk (hslash.imp_right .inl)
    have htokens : ∀ v ∈ s.vault.records b, v.token = w.config.token := by
      rcases hslash with ⟨_, rfl⟩ | rfl
      · exact hone
      · exact hone
    have hloss : op.loss w s t token = -keptStake token w.config.slashBps (s.records b) := by
      rcases hslash with ⟨_, rfl⟩ | rfl
      · rfl
      · rfl
    have hrecords : t.vault.records = update s.vault.records b [] := by
      rw [ht]
      exact Vouching.removeVouches_records ..
    have hqueues : t.vault.queues = s.vault.queues := by
      rw [ht]
      rfl
    have hbank : t.vault.bank =
        s.vault.bank.moves (remaindersAt w w.config.token w.config.slashBps (s.vault.records b)) := by
      rw [ht]
      rfl
    have hpositive := remaindersAt_nonneg w w.config.token w.config.slashBps (s.vault.records b)
    have hpaid := s.vault.bank.le_balance_moves hpositive token w.contract
    have hkept := outgo_remaindersAt w token w.config.token w.config.slashBps htokens
    have hnone : plainStake token [] = 0 := rfl
    rw [hlent, hloss, Vault.owed_rewrite hx hrecords hqueues, hbank]
    change _ ≤ _ + -keptStake token w.config.slashBps (s.vault.records b)
    omega
  | @returned b loan _ _ _ ht =>
    have hlent : t.book.lent token = s.book.lent token := he.lent_flagged (b := b) token hk (.inr (.inr rfl))
    have hloss : (Op.claimExpiredLoan b).loss w s t token = 0 := rfl
    have hrecords : t.vault.records = update s.vault.records b [] := by
      rw [ht]
      exact Vouching.removeVouches_records ..
    have hqueues : t.vault.queues = s.vault.queues := by
      rw [ht]
      rfl
    have hbank : t.vault.bank =
        s.vault.bank.moves ((s.vault.records b).map fun v => w.payment w.config.token v.voucher v.stake) := by
      rw [ht]
      rfl
    have hpositive : ∀ p ∈ (s.vault.records b).map fun v => w.payment w.config.token v.voucher v.stake,
        0 ≤ p.amount := by
      intro p hp
      obtain ⟨v, hv, rfl⟩ := List.mem_map.1 hp
      exact hx.staked b v hv
    have htokens : ∀ v ∈ s.vault.records b, v.token = w.config.token := hone
    have hpaid := s.vault.bank.le_balance_moves hpositive token w.contract
    rw [outgo_stakes w token htokens] at hpaid
    have hnone : plainStake token [] = 0 := rfl
    rw [hlent, hloss, Vault.owed_rewrite hx hrecords hqueues, hbank]
    omega
  | @executed op b loan hexecutes hloan _ ht =>
    have hlent := he.lent_executed token hk hexecutes hloan
    have hcalls : op = .executeSlashVote b ∨ op = .executePendingSlash b := by
      cases op <;> first | (cases hexecutes; simp) | cases hexecutes
    have htokens : ∀ v ∈ s.vault.records b, v.token = loan.tokenAddress := by
      rcases hcalls with rfl | rfl
      · exact hone loan hloan
      · exact hone loan hloan
    have hloss : op.loss w s t token =
        loan.principalIn token - keptStake token (slashRate w s.book b) (s.vault.records b) := by
      rcases hcalls with rfl | rfl
      · simp only [Op.loss, hloan, principalOf]
        rfl
      · simp only [Op.loss, hloan, principalOf]
        rfl
    have howed := Vault.owed_executed (w := w) (c := w.contract) token hx (slashRate w s.book b) htokens
    rw [hlent, hloss, ht]
    omega

/-- A settlement leaves the queues alone, or empties one. -/
theorem Resolved.emptied (h : Resolved w s t op) :
    t.vault.queues = s.vault.queues ∨ ∃ b, t.vault.queues = update s.vault.queues b [] := by
  cases h with
  | paid _ _ _ ht | slashed _ _ _ _ ht | returned _ _ _ ht =>
    rw [ht]
    exact .inl rfl
  | @closed b n loan _ _ _ ht =>
    have hsettled : t.vault.queues = ((s.vault.takes w loan b n).drained w b).queues := by
      rw [ht]
      exact Vouching.view_earnAll (f := Vouching.withdrawalQueue) ((s.vault.takes w loan b n).drained w b).vouching _ _
    rw [hsettled, Vault.drained_queues]
    exact .inr ⟨b, rfl⟩
  | recovered _ _ ht => exact .inl (congrArg Vouching.withdrawalQueue ht)
  | @executed _ b _ _ _ _ ht =>
    rw [ht, Vault.drained_queues, Vault.seized_queues]
    exact .inr ⟨b, rfl⟩

/-- So it leaves them in order. -/
theorem Resolved.queues (h : Resolved w s t op) (hq : FeeQueues s.vault.queues) : FeeQueues t.vault.queues := by
  rcases h.emptied with hkept | ⟨b, hempty⟩
  · rw [hkept]
    exact hq
  · rw [hempty]
    exact hq.update b (List.forall_mem_nil _)

end

/-! ## Every run -/

section

variable {s : State} {c : Call} {t : Store}

theorem queues_kept (h : exec c s = .ok t) (hop : c.op.stakes = false) (hnone : c.op.resolves = none) :
    t.vault.queues = s.store.vault.queues :=
  yields_exec ((dispatch_keeps_unsettled (f := Vouching.withdrawalQueue) hop hnone).out _ _) h

theorem feeQueues_step {h : List (State × Move)} (hr : History h s) (hq : FeeQueues s.store.vault.queues)
    (hd : exec c s = .ok t) : FeeQueues t.vault.queues := by
  by_cases hop : c.op.stakes = true
  · exact (staked_of hd hop).queues hq
  · have hop := Bool.eq_false_of_not_eq_true hop
    cases hresolves : c.op.resolves with
    | some b => exact (resolved_of hr.solid hr.keyed hd hresolves).queues hq
    | none =>
      rw [queues_kept hd hop hresolves]
      exact hq

theorem History.feeQueues {h : List (State × Move)} (hr : History h s) : FeeQueues s.store.vault.queues := by
  refine History.inv (p := fun _ _ => True) (I := fun _ s => FeeQueues s.store.vault.queues) (fun _ _ => ?_)
    (fun hr hq hd _ => feeQueues_step hr hq hd) (fun hq _ => hq) (fun hq _ _ => hq) hr (along_true h)
  refine ⟨Set.finite_empty.subset fun b hb => hb rfl, fun b q hq => ?_⟩
  cases hq

/-- The vouches are in order in every state the contract can be in. -/
theorem History.vaultInOrder {h : List (State × Move)} (hr : History h s) : s.store.vault.InOrder :=
  ⟨Reachable.sparse ⟨h, hr⟩, Reachable.wellFormed ⟨h, hr⟩, hr.feeQueues⟩

end

/-- The other calls pay out what they lend, or what the slashes have kept. -/
theorem outflow_le {s : State} {c : Call} {t : Store} (hk : s.store.book.Keyed) (hd : exec c s = .ok t)
    (hone : c.op.oneToken s) (hop : c.op.stakes = false) (hnone : c.op.resolves = none) (token : Address) :
    s.store.outflow t s.world.contract token ≤
      t.book.lent token - s.store.book.lent token + c.op.loss s.world s.store t token := by
  have he := effect_of hd
  unfold Store.outflow
  by_cases honly : c.op.onlyLooks = true
  · have hlent := he.lent_looked token hk honly
    cases hpays : c.op.paysOut with
    | true =>
      have hlooks : c.op.looksAt s.world s.store.book = [] := by
        cases hc : c.op <;> first | rfl | (rw [hc] at hpays; cases hpays)
      have hloss : c.op.loss s.world s.store t token = s.store.outflow t s.world.contract token := by
        cases hc : c.op <;> first | rfl | (rw [hc] at hpays; cases hpays)
      rw [hlooks] at hlent
      change _ = _ - 0 at hlent
      rw [hloss, Store.outflow]
      omega
    | false =>
      have hbank : t.bank = s.store.bank := yields_exec ((dispatch_keeps_bank honly hop hpays).out _ _) hd
      have hloss : c.op.loss s.world s.store t token =
          s.store.book.writtenOff token s.world.now (c.op.looksAt s.world s.store.book) := by
        cases hc : c.op <;> first | rfl | (rw [hc] at honly; cases honly; done) | (rw [hc] at hpays; cases hpays)
      rw [hbank, hloss]
      omega
  · obtain ⟨signers, op⟩ := c
    cases op
    case requestLoan b n threshold purpose tk =>
      have hdown : s.store.bank.DownBy t.bank s.world.contract tk n :=
        yields_exec (c := ⟨signers, .requestLoan b n threshold purpose tk⟩) (requestLoan_bank b n threshold purpose tk)
          hd
      have hbank := hdown token
      have hlent := he.lent_requested token hk
      change _ ≤ _ - _ + s.store.book.writtenOff token s.world.now (s.store.book.borrowerLoanIds b)
      omega
    case repayPartial b n tk =>
      obtain ⟨hcaller, hbank⟩ : b ≠ s.world.contract ∧ t.bank = s.store.bank.move tk b s.world.contract n :=
        yields_exec (c := ⟨signers, .repayPartial b n tk⟩) (repayPartial_bank b n tk) hd
      obtain ⟨loan, hloan, hpos, hlent⟩ := he.lent_partial token hk
      have htoken := hone loan hloan
      subst htoken
      have hpaid := Bank.balance_paid_in s.store.bank loan.tokenAddress token hcaller n
      rw [← hbank] at hpaid
      change _ ≤ _ - _ + 0
      by_cases htoken : loan.tokenAddress = token
      · simp only [htoken, and_true, if_true] at hpaid hlent
        split at hlent
        · omega
        · omega
      · simp only [htoken, and_false, if_false] at hpaid hlent
        omega
    case refinanceLoan b n threshold tk =>
      obtain ⟨old, hold, hle, hdown⟩ : ∃ old, s.store.book.getActiveLoanRecord b = some old ∧
          old.amount + old.totalYield - old.amountRepaid ≤ n ∧
          s.store.bank.DownBy t.bank s.world.contract tk (n - (old.amount + old.totalYield - old.amountRepaid)) :=
        yields_exec (c := ⟨signers, .refinanceLoan b n threshold tk⟩) (refinanceLoan_bank b n threshold tk) hd
      obtain ⟨old', hold', hlent⟩ := he.lent_refinanced token hk
      obtain rfl : old' = old := Option.some.inj (hold'.symm.trans hold)
      obtain rfl := hone old' hold
      have hbank := hdown token
      have hloss : (Op.refinanceLoan b n threshold old'.tokenAddress).loss s.world s.store t token =
          if old'.tokenAddress = token then old'.principalIn token - (old'.amount + old'.totalYield - old'.amountRepaid)
          else 0 := by
        simp only [Op.loss, hold]
      change _ ≤ _ + (Op.refinanceLoan b n threshold old'.tokenAddress).loss s.world s.store t token
      rw [hloss]
      by_cases htoken : old'.tokenAddress = token
      · simp only [htoken, if_true] at hbank hlent ⊢
        omega
      · have hother := LoanRecord.principalIn_other htoken
        simp only [htoken, if_false] at hbank hlent ⊢
        omega
    case createLoanPool admins borrowers amounts =>
      have hpool : Yields (dispatch (.createLoanPool admins borrowers amounts)) ⟨s.world, signers⟩ s.store fun _ t =>
          ∀ token, s.store.bank.balance token s.world.contract -
            pooledIn token s.world.config.token (borrowers.zip amounts) ≤ t.bank.balance token s.world.contract := by
        simp only [dispatch, discard, yields_steps]
        exact createLoanPool_bank admins borrowers amounts
      have hbank := yields_exec (c := ⟨signers, .createLoanPool admins borrowers amounts⟩) hpool hd token
      have hlent := he.lent_pooled token hk
      change _ ≤ _ - _ + 0
      omega
    all_goals first | cases hop; done | cases hnone; done | exact absurd rfl honly

/-- A call that goes through leaves a shortfall by no more than its loss. -/
theorem shortfall_step {h : List (State × Move)} {s : State} {c : Call} {t : Store} (hr : History h s)
    (hd : exec c s = .ok t) (hone : c.op.oneToken s) (token : Address) :
    t.shortfall s.world.contract token ≤
      s.store.shortfall s.world.contract token + c.op.loss s.world s.store t token := by
  have he := effect_of hd
  have hk := hr.keyed
  have hx := hr.vaultInOrder
  by_cases hop : c.op.stakes = true
  · have hmoved := (vouchEffect_of hd).totalStaked hx.records
    have howed := (staked_of hd hop).owed token hx fun hhands => hmoved hhands token
    have hlent := he.lent_looked token hk (by cases hc : c.op <;> first | rfl | (rw [hc] at hop; cases hop))
    have hloss : c.op.loss s.world s.store t token =
        s.store.book.writtenOff token s.world.now (c.op.looksAt s.world s.store.book) := by
      cases hc : c.op <;> first | rfl | (rw [hc] at hop; cases hop)
    unfold Store.shortfall
    rw [hloss, hlent]
    omega
  · have hop := Bool.eq_false_of_not_eq_true hop
    cases hresolves : c.op.resolves with
    | some b =>
      refine (resolved_of hr.solid hk hd hresolves).shortfall token he hk hx hone fun b n hc => ?_
      obtain ⟨signers, op⟩ := c
      subst hc
      exact yields_exec (c := ⟨signers, .repay b n⟩) (repay_caller b n) hd
    | none =>
      have howed : t.vault.owed s.world.contract token = _ :=
        Vault.owed_kept (records_kept hd hop hresolves) (queues_kept hd hop hresolves)
      have hout := outflow_le hk hd hone hop hresolves token
      unfold Store.shortfall
      rw [howed]
      change s.store.vault.bank.balance token s.world.contract - t.vault.bank.balance token s.world.contract ≤ _ at hout
      omega

theorem netLoss_cons (token : Address) (e : State × Move) (h : List (State × Move)) :
    netLoss token (e :: h) = stepLoss token e + netLoss token h := List.sum_cons

/-- What is owed beyond what is held and lent was lost, but for what the contract started with. -/
theorem shortfall_le {world : World} {bank : Ledger} {h : List (State × Move)} {s : State}
    (hr : Run Step (genesis world bank) h s) (hok : Along (WhenDone fun s op => op.oneToken s) h) (token : Address) :
    s.world.contract = world.contract ∧
      s.store.shortfall s.world.contract token + bank.balance token world.contract ≤ netLoss token h := by
  refine Run.inv (WhenDone fun s op => op.oneToken s)
    (fun h s => s.world.contract = world.contract ∧
      s.store.shortfall s.world.contract token + bank.balance token world.contract ≤ netLoss token h)
    ⟨rfl, ?_⟩ (fun h s m s' hr hi hm hst => ?_) hr hok
  · have hstakes : totalStaked token (genesis world bank).store.records = 0 := finsum_zero
    have hfees : pendingFees token (genesis world bank).store.vault.queues = 0 := finsum_zero
    have hlent : (genesis world bank).store.book.lent token = 0 := LoanBook.lent_empty token
    unfold Store.shortfall Vault.owed
    rw [hlent]
    change totalStaked token (genesis world bank).store.records + _ - bank.balance token world.contract - 0 + _ ≤ 0
    omega
  · obtain ⟨hcontract, hi⟩ := hi
    rw [netLoss_cons]
    cases hst with
    | @done c t hd =>
      have hstep := shortfall_step ⟨world, bank, hr⟩ hd (hm ⟨t, hd⟩) token
      have hloss : stepLoss token (s, .call c) = c.op.loss s.world s.store t token := by simp only [stepLoss, hd]
      refine ⟨hcontract, ?_⟩
      rw [hloss]
      change t.shortfall s.world.contract token + _ ≤ _
      omega
    | @refused c e he =>
      have hloss : stepLoss token (s, .call c) = 0 := by simp only [stepLoss, he]
      refine ⟨hcontract, ?_⟩
      rw [hloss]
      omega
    | @elsewhere world' access bank' _ hsame =>
      refine ⟨hsame.trans hcontract, ?_⟩
      change totalStaked token s.store.records + pendingFees token s.store.vault.queues -
        bank'.balance token world'.contract - s.store.book.lent token + _ ≤
          s.store.bank.balance token s.world.contract - bank'.balance token s.world.contract + _
      change totalStaked token s.store.records + pendingFees token s.store.vault.queues -
        s.store.bank.balance token s.world.contract - s.store.book.lent token + _ ≤ _ at hi
      rw [hsame]
      omega

/-- The stakes in a token, and what the contract held of it when it was initialised,
are covered by what it holds, the principal that is out on active loans in the
token, and what was lost. -/
theorem stakes_covered {world : World} {bank : Ledger} {h : List (State × Move)} {s : State}
    (hr : Run Step (genesis world bank) h s) (hok : Along (WhenDone fun s op => op.oneToken s) h) (token : Address) :
    bank.balance token world.contract + totalStaked token s.store.records - s.store.book.outstanding token -
      netLoss token h ≤ s.store.bank.balance token s.world.contract := by
  have hreached : History h s := ⟨world, bank, hr⟩
  obtain ⟨-, hshort⟩ := shortfall_le hr hok token
  have hlent := hreached.keyed.lent_le token
  have hfees : 0 ≤ pendingFees token s.store.vault.queues :=
    finsum_nonneg fun b => feesIn_nonneg (hreached.feeQueues.fees b)
  change totalStaked token s.store.records + pendingFees token s.store.vault.queues -
    s.store.bank.balance token s.world.contract - s.store.book.lent token + _ ≤ _ at hshort
  omega

/-- A loan on request is repaid in full. -/
theorem stakes_covered_repaid :
    (exec ⟨[10], .repay 10 510000⟩ (start.play requestedLoan)).toBool = true ∧
      sampleBank.balance 100 sampleWorld.contract +
        totalStaked 100 ((start.play requestedLoan).after ⟨[10], .repay 10 510000⟩).store.records -
        ((start.play requestedLoan).after ⟨[10], .repay 10 510000⟩).store.book.outstanding 100 -
        netLoss 100 ((start.play requestedLoan, .call ⟨[10], .repay 10 510000⟩) :: start.trace [] requestedLoan) ≤
      ((start.play requestedLoan).after ⟨[10], .repay 10 510000⟩).store.bank.balance 100
        ((start.play requestedLoan).after ⟨[10], .repay 10 510000⟩).world.contract := by
  have hgoes : (exec ⟨[10], .repay 10 510000⟩ (start.play requestedLoan)).toBool = true := by decide +kernel
  have hempty : ((start.play requestedLoan).store.vault.queue 10).isEmpty = true := by decide +kernel
  have hmatch : FeesMatch ((start.play requestedLoan).store.vault.queue 10) := by
    rw [List.isEmpty_iff.1 hempty]
    exact feesMatch_nil
  have halong : Along (WhenDone fun s op => op.oneToken s) (start.trace [] requestedLoan) := by
    refine along_trace _ (List.forall_mem_nil _) fun a ha _ => ?_
    simp only [requestedLoan, List.mem_cons, List.not_mem_nil, or_false] at ha
    rcases ha with rfl | rfl | rfl <;> exact fun _ => trivial
  have hrun : Run Step start (start.trace [] requestedLoan) (start.play requestedLoan) := run_play .nil requestedLoan
  refine ⟨hgoes, ?_⟩
  generalize start.play requestedLoan = s at hmatch hrun
  exact stakes_covered (hrun.snoc (Step.after s ⟨[10], .repay 10 510000⟩))
    (List.forall_mem_cons.2 ⟨fun _ => hmatch, halong⟩) 100

/-- A bank of which the contract holds nothing at the start. -/
def lendersBank : Ledger := { balance := fun _ who => if who = 0 then 0 else 1000000000, log := [] }

/-- The loan of a pool, overdue and looked at. -/
def writtenOffLoan : List Act := poolLoan ++ [.wait 2592001, .call [] (.getLoan 10)]

/-- The stake of a loan that was marked as defaulted is still recorded, and half of it is gone. -/
theorem stakes_uncovered : ¬ ∀ s, Reachable s → ∀ token,
    totalStaked token s.store.records - s.store.book.outstanding token ≤
      s.store.bank.balance token s.world.contract := by
  intro hcovered
  have hr := Reachable.script sampleWorld lendersBank writtenOffLoan
  have hlaw := hcovered _ hr 100
  have hstake : plainStake 100 (((genesis sampleWorld lendersBank).play writtenOffLoan).store.records 10) =
      1000000 := by
    decide +kernel
  have hheld : ((genesis sampleWorld lendersBank).play writtenOffLoan).store.bank.balance 100
      ((genesis sampleWorld lendersBank).play writtenOffLoan).world.contract = 500000 := by decide +kernel
  have hcount : ((genesis sampleWorld lendersBank).play writtenOffLoan).store.book.loanCounter = 1 := by decide +kernel
  have hloans : ∀ id ≤ 1,
      max 0 (principalOf 100 (((genesis sampleWorld lendersBank).play writtenOffLoan).store.book.loan id)) = 0 := by
    decide +kernel
  generalize (genesis sampleWorld lendersBank).play writtenOffLoan = s at hr hlaw hstake hheld hcount hloans
  have hbelow : plainStake 100 (s.store.records 10) ≤ totalStaked 100 s.store.records :=
    single_le_finsum 10 (hr.sparse.support 100) fun b =>
      plainStake_nonneg 100 fun v hv => ((hr.wellFormed b).staked v hv).le
  have hnone : s.store.book.outstanding 100 = 0 := by
    refine finsum_eq_zero_of_forall_eq_zero fun id => ?_
    by_cases hid : id ≤ 1
    · exact hloans id hid
    · obtain ⟨h, hr⟩ := hr
      rw [hr.keyed.unused (by omega)]
      rfl
  omega

end QuorumCredit
