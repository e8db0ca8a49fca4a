import QuorumCredit.RecurringPayment
import QuorumCredit.SettlementOutcome
/-!
# What a payment by another way does

Each call that takes a payment, as what it found and what it left: the loan's record,
the borrower's entries and the transfers.
-/

open Host Function

namespace QuorumCredit

/-! ## A settlement over the bridge -/

namespace Vault

/-- The vault after the vouchers of a converted repayment are paid, queue or not. -/
def settledConverted (x : Vault) (w : World) (token b : Address) (dist : List YieldDistributionEntry) : Vault where
  bank := x.bank.moves (duePayouts w token dist (inToken token (x.vouching.vouchesOf b)))
  vouching := (x.vouching.earnAll (earnedOn w token dist) (inToken token (x.vouching.vouchesOf b))).removeVouches b

end Vault

section

variable {ctx : Context} (token : Address) (dist : List YieldDistributionEntry) {total : Int}

/-- A voucher gets what `repay` would pay, where no stake is counted without a total. -/
theorem yields_payoutConverted (v : VouchRecord) (htotal : 0 < total ∨ v.stake = 0) (x : Vault) :
    Yields (payoutConverted token dist total v) ctx x fun _ y =>
      y.bank = x.bank.moves (duePayouts ctx.toWorld token dist [v]) ∧
        y.vouching = x.vouching.earn v.voucher (earnedOn ctx.toWorld token dist v) := by
  have hproduct : (if 0 < total then v.stake * liquidityTierBonusBps ctx.toWorld token else 0) =
      v.stake * liquidityTierBonusBps ctx.toWorld token := by
    rcases htotal with htotal | hzero
    · rw [if_pos htotal]
    · rw [hzero, Int.zero_mul, ite_self]
  simp only [payoutConverted, hproduct, yields_steps, yields_i128, yields_parts]
  intro _ _
  change Yields (if 0 < duePayout ctx.toWorld token dist v then do
      zoom (pay token v.voucher (duePayout ctx.toWorld token dist v))
      zoom (addYieldEarned v.voucher (earnedOn ctx.toWorld token dist v))
    else zoom (addYieldEarned v.voucher (earnedOn ctx.toWorld token dist v))) ctx x _
  by_cases hpays : 0 < duePayout ctx.toWorld token dist v
  · have hpayout : duePayouts ctx.toWorld token dist [v] =
        [ctx.toWorld.payment token v.voucher (duePayout ctx.toWorld token dist v)] :=
      List.filterMap_cons_some (if_pos hpays)
    simp only [hpayout, if_pos hpays, addYieldEarned, yields_steps, yields_zoom, yields_pay, yields_i128]
    exact fun _ _ _ => ⟨rfl, rfl⟩
  · have hpayout : duePayouts ctx.toWorld token dist [v] = [] := List.filterMap_cons_none (if_neg hpays)
    simp only [hpayout, if_neg hpays, addYieldEarned, yields_steps, yields_zoom, yields_i128]
    exact fun _ => ⟨rfl, rfl⟩

theorem yields_payoutsConverted (vouches : List VouchRecord)
    (htotal : ∀ v ∈ inToken token vouches, 0 < total ∨ v.stake = 0) (x : Vault) :
    Yields (payoutsConverted token dist total vouches) ctx x fun _ y =>
      y.bank = x.bank.moves (duePayouts ctx.toWorld token dist (inToken token vouches)) ∧
        y.vouching = x.vouching.earnAll (earnedOn ctx.toWorld token dist) (inToken token vouches) := by
  induction vouches generalizing x with
  | nil =>
    simp only [payoutsConverted, yields_pure]
    exact ⟨rfl, rfl⟩
  | cons v vs ih =>
    by_cases htoken : v.token = token
    · have hsettled : inToken token (v :: vs) = v :: inToken token vs := List.filter_cons_of_pos (by simpa using htoken)
      have hdue : duePayouts ctx.toWorld token dist (v :: inToken token vs) =
          duePayouts ctx.toWorld token dist [v] ++ duePayouts ctx.toWorld token dist (inToken token vs) :=
        List.filterMap_append (l := [v])
      rw [hsettled, List.forall_mem_cons] at htotal
      rw [payoutsConverted, if_pos htoken, yields_bind, hsettled, hdue, Bank.moves_append, Vouching.earnAll]
      refine (yields_payoutConverted token dist v htotal.1 x).mono ?_
      rintro - y ⟨hbank, hvouching⟩
      rw [← hbank, ← hvouching]
      exact ih htotal.2 y
    · have hsettled : inToken token (v :: vs) = inToken token vs := List.filter_cons_of_neg (by simpa using htoken)
      rw [hsettled] at htotal ⊢
      rw [payoutsConverted, if_neg htoken]
      exact ih htotal x

/-- A stake counts towards the total, so there is none without one. -/
theorem stake_counted {vouches : List VouchRecord} (h : WellFormed vouches) :
    ∀ v ∈ inToken token vouches, 0 < stakeSum (inToken token vouches) ∨ v.stake = 0 := by
  intro v hv
  left
  have hnonneg : ∀ n ∈ (inToken token vouches).map (·.stake), 0 ≤ n := by
    intro n hn
    obtain ⟨u, hu, rfl⟩ := List.mem_map.1 hn
    exact (h.staked u (List.mem_filter.1 hu).1).le
  have hle : v.stake ≤ stakeSum (inToken token vouches) :=
    List.single_le_sum hnonneg _ (List.mem_map_of_mem hv)
  exact (h.staked v (List.mem_filter.1 hv).1).trans_le hle

theorem yields_settleConverted (loan : LoanRecord) (b : Address) (x : Vault)
    (hwell : WellFormed (x.vouching.vouchesOf b)) :
    Yields (settleConverted loan b dist) ctx x fun _ y =>
      y = x.settledConverted ctx.toWorld loan.tokenAddress b dist := by
  simp only [settleConverted, yields_bind, yields_look]
  refine (yields_sumI128 _ _ _ _ _).mono ?_
  rintro total x' ⟨htotal, hsame⟩
  have hsum : total = stakeSum (inToken loan.tokenAddress (x.vouching.vouchesOf b)) := htotal.trans (Int.zero_add _)
  rw [hsum, hsame]
  refine (yields_payoutsConverted loan.tokenAddress dist _ (stake_counted _ hwell) _).mono ?_
  rintro - y ⟨hbank, hvouching⟩
  rw [yields_alter, Vault.settledConverted, ← hbank, ← hvouching]

/-- The loan with the payment counted: settled if that completes it. -/
theorem yields_applyConvertedRepayment (b : Address) (loan : LoanRecord) (payment : Int) (s : Store)
    (hwell : WellFormed (s.records b)) :
    Yields (applyConvertedRepayment b loan payment) ctx s fun _ t =>
      loan.amountRepaid + payment < loan.amount + loan.totalYield ∧ t.vault = s.vault ∧
        t.book = s.book.setLoan loan.id { loan with amountRepaid := loan.amountRepaid + payment } ∨
      loan.amount + loan.totalYield ≤ loan.amountRepaid + payment ∧
        t.vault = s.vault.settledConverted ctx.toWorld loan.tokenAddress b (s.locked loan.id) ∧
        t.book = ((s.book.addRepayment b).setActiveLoan b none).setLoan loan.id
          { loan with
            amountRepaid := loan.amountRepaid + payment, status := .repaid, repaid := true
            repaymentTimestamp := some ctx.now } := by
  simp only [applyConvertedRepayment, yields_steps, yields_i128, yields_ite, yields_parts, yields_onBook]
  intro _ _
  constructor
  · intro hcompletes
    refine (yields_settleConverted _ loan b s.vault hwell).mono ?_
    rintro - x hx
    simp only [setYieldDistribution, yields_alter]
    exact .inr ⟨hcompletes, hx, rfl⟩
  · intro hopen
    exact .inl ⟨not_le.1 hopen, rfl, rfl⟩

end

theorem outstandingOf_eq {totalOwed amountRepaid : Int} (howed : FitsI128 totalOwed) (hrepaid : 0 ≤ amountRepaid) :
    outstandingOf totalOwed amountRepaid = max (totalOwed - amountRepaid) 0 := by
  rw [outstandingOf]
  split
  case isTrue => rfl
  case isFalse hover =>
    -- it can only be too far below zero
    unfold FitsI128 i128Min i128Max at howed hover
    omega

/-! ## The loan a payment goes to -/

theorem bridgeLoan_of_active {k : LoanBook} {b : Address} {loan : LoanRecord}
    (h : k.getActiveLoanRecord b = some loan) (hactive : loan.status = .active) : k.bridgeLoan b = some loan := by
  obtain ⟨id, hptr, hloan⟩ := Option.bind_eq_some_iff.1 h
  rw [LoanBook.bridgeLoan, hptr]
  dsimp only
  rw [hloan]
  simp [hactive]

theorem bridgeLoan_stored {k : LoanBook} (hk : k.Keyed) {b : Address} {loan : LoanRecord}
    (h : k.bridgeLoan b = some loan) : k.loan loan.id = some loan := by
  unfold LoanBook.bridgeLoan at h
  split at h
  · obtain ⟨hloan, -⟩ := Option.filter_eq_some_iff.1 h
    rw [(hk.stored hloan).1]
    exact hloan
  · obtain ⟨hloan, -⟩ := Option.filter_eq_some_iff.1 h
    obtain ⟨id, -, hloan⟩ := Option.bind_eq_some_iff.1 hloan
    rw [(hk.stored hloan).1]
    exact hloan

/-- A payment on an active loan by another way than `repay`, and what it is worth in the loan's token. -/
structure OtherPayment where
  borrower : Address
  loan : LoanRecord
  worth : Int

/-- The price of a token, par without one. -/
def Swaps.priceOf (x : Swaps) (token : Address) : Int := (x.bridgeTokenPrice token).getD 10000

/-- What an amount of one token is in another at the prices set. -/
def Swaps.converted (x : Swaps) (paymentToken loanToken : Address) (amount : Int) : Int :=
  (amount * x.priceOf paymentToken).tdiv (x.priceOf loanToken)

namespace PaymentStore

/-- The borrower's loan, if it is Active. -/
def activeLoan (s : PaymentStore) (b : Address) : Option LoanRecord :=
  (s.core.book.getActiveLoanRecord b).filter fun loan => loan.status = .active

theorem activeLoan_eq_some {s : PaymentStore} {b : Address} {loan : LoanRecord} :
    s.activeLoan b = some loan ↔ s.core.book.getActiveLoanRecord b = some loan ∧ loan.status = .active := by
  simp [activeLoan, Option.filter_eq_some_iff]

end PaymentStore

/-- The payment that the call makes on an active loan; one in the loan's own token goes
through `repay`, and a scheduled one is counted at par. -/
def PaymentOp.payment (s : PaymentStore) : PaymentOp → Option OtherPayment
  | .repayWithSwap borrower paymentToken paymentAmount =>
    (s.activeLoan borrower).bind fun loan =>
      if paymentToken = loan.tokenAddress then none
      else some ⟨borrower, loan, s.bridge.swaps.converted paymentToken loan.tokenAddress paymentAmount⟩
  | .repayCrossChainAtomic _ _ borrower paymentAmount _ =>
    (s.activeLoan borrower).map fun loan => ⟨borrower, loan, paymentAmount⟩
  | .executeRecurringPayment borrower =>
    (s.activeLoan borrower).bind fun loan =>
      (s.recurring.recurringPayment borrower).map fun config => ⟨borrower, loan, config.amount⟩
  | _ => none

/-! ## What a call does -/

/-- The vault with a payment from the borrower in the token. -/
def Vault.receives (x : Vault) (w : World) (token b : Address) (payment : Int) : Vault :=
  { x with bank := x.bank.move token b w.contract payment }

/-- What a call that goes through found and did. -/
inductive PaymentEffect (w : World) (s t : PaymentStore) : PaymentOp → Prop
  | core {op} : t.recurring.recurringPayment = s.recurring.recurringPayment →
      Effect w s.core.book op t.core.book → VouchEffect w s.core t.core op → PaymentEffect w s t (.core op)
  | repaid {b token amount loan} : s.core.book.bridgeLoan b = some loan → token = loan.tokenAddress →
      t.recurring = s.recurring → Effect w s.core.book (.repay b amount) t.core.book →
      Dropped s.core.records b t.core.records → PaymentEffect w s t (.repayWithSwap b token amount)
  | swapped {b token amount loan payment} : s.core.book.bridgeLoan b = some loan → token ≠ loan.tokenAddress →
      0 < s.bridge.swaps.converted token loan.tokenAddress amount →
      payment = min (s.bridge.swaps.converted token loan.tokenAddress amount)
        (max (loan.amount + loan.totalYield - loan.amountRepaid) 0) →
      loan.amountRepaid + payment < loan.amount + loan.totalYield → t.recurring = s.recurring →
      t.core.vault = s.core.vault.receives w token b amount →
      t.core.book = s.core.book.setLoan loan.id { loan with amountRepaid := loan.amountRepaid + payment } →
      PaymentEffect w s t (.repayWithSwap b token amount)
  | swapSettled {b token amount loan payment} : s.core.book.bridgeLoan b = some loan → token ≠ loan.tokenAddress →
      0 < s.bridge.swaps.converted token loan.tokenAddress amount →
      payment = min (s.bridge.swaps.converted token loan.tokenAddress amount)
        (max (loan.amount + loan.totalYield - loan.amountRepaid) 0) →
      loan.amount + loan.totalYield ≤ loan.amountRepaid + payment → t.recurring = s.recurring →
      t.core.vault = (s.core.vault.receives w token b amount).settledConverted w loan.tokenAddress b
        (s.core.locked loan.id) →
      t.core.book = ((s.core.book.addRepayment b).setActiveLoan b none).setLoan loan.id
        { loan with
          amountRepaid := loan.amountRepaid + payment, status := .repaid, repaid := true
          repaymentTimestamp := some w.now } →
      PaymentEffect w s t (.repayWithSwap b token amount)
  | attested {chain id b amount attestation loan} : s.core.book.bridgeLoan b = some loan → 0 < amount →
      t.recurring = s.recurring → t.core.vault = s.core.vault.receives w loan.tokenAddress b amount →
      t.core.book = s.core.book.setLoan loan.id
        { loan with
          amountRepaid := loan.amountRepaid + amount, repaymentTimestamp := some w.now
          status := if loan.amount + loan.totalYield ≤ loan.amountRepaid + amount then .repaid else loan.status } →
      PaymentEffect w s t (.repayCrossChainAtomic chain id b amount attestation)
  | scheduled {b loan config config'} : s.core.book.getActiveLoanRecord b = some loan →
      s.recurring.recurringPayment b = some config →
      t.recurring.recurringPayment = update s.recurring.recurringPayment b (some config') →
      config'.amount = config.amount →
      t.core.vault = s.core.vault.receives w config.token b config.amount →
      t.core.book = s.core.book.setLoan loan.id { loan with amountRepaid := loan.amountRepaid + config.amount } →
      PaymentEffect w s t (.executeRecurringPayment b)
  | scheduling {op b config} : op.payment s = none →
      t.recurring.recurringPayment = update s.recurring.recurringPayment b (some config) →
      0 < config.amount ∨ (∃ old, s.recurring.recurringPayment b = some old ∧ config.amount = old.amount) →
      t.core.book = s.core.book → t.core.records = s.core.records → PaymentEffect w s t op

/-- What holds of the loans, the vouches and the schedules in every state. -/
structure PaymentBooks (s : PaymentStore) : Prop where
  keyed : s.core.book.Keyed
  solid : s.core.book.Solid
  wellFormed : ∀ b, WellFormed (s.core.records b)
  positive : ∀ b config, s.recurring.recurringPayment b = some config → 0 < config.amount

section

variable {host : BridgeHost} {ctx : Context}

theorem yields_convertPayment (paymentToken loanToken : Address) (amount : Int) (x : Swaps) :
    Yields (convertPayment paymentToken loanToken amount) ctx x fun converted y => y = x ∧
      converted = x.converted paymentToken loanToken amount ∧ 0 < converted := by
  simp only [convertPayment, getBridgeTokenPrice, yields_steps, yields_i128, yields_divI128]
  exact fun _ _ _ _ hpos => ⟨trivial, rfl, hpos⟩

theorem yields_swapPayment (b : Address) (loan : LoanRecord) (token : Address) (amount : Int) (s : BridgeStore)
    (hrepaid : 0 ≤ loan.amountRepaid) (hwell : WellFormed (s.core.records b)) :
    Yields (swapPayment b loan token amount) ctx s fun _ t => ∃ payment,
      0 < s.swaps.converted token loan.tokenAddress amount ∧
      payment = min (s.swaps.converted token loan.tokenAddress amount)
        (max (loan.amount + loan.totalYield - loan.amountRepaid) 0) ∧
      (loan.amountRepaid + payment < loan.amount + loan.totalYield ∧
          t.core.vault = s.core.vault.receives ctx.toWorld token b amount ∧
          t.core.book = s.core.book.setLoan loan.id { loan with amountRepaid := loan.amountRepaid + payment } ∨
        loan.amount + loan.totalYield ≤ loan.amountRepaid + payment ∧
          t.core.vault = (s.core.vault.receives ctx.toWorld token b amount).settledConverted ctx.toWorld
            loan.tokenAddress b (s.core.locked loan.id) ∧
          t.core.book = ((s.core.book.addRepayment b).setActiveLoan b none).setLoan loan.id
            { loan with
              amountRepaid := loan.amountRepaid + payment, status := .repaid, repaid := true
              repaymentTimestamp := some ctx.now }) := by
  simp only [swapPayment, yields_steps, yields_parts, yields_i128, yields_collect, addBridged]
  refine (yields_convertPayment _ _ _ _).mono ?_
  rintro converted _ ⟨rfl, rfl, hpos⟩
  intro howed _ _
  rw [outstandingOf_eq howed hrepaid]
  let taken : Store := { s.core with vault := s.core.vault.receives ctx.toWorld token b amount }
  refine Yields.mono (yields_applyConvertedRepayment b loan _ taken hwell) ?_
  rintro - t ht
  exact ⟨_, hpos, rfl, ht⟩

instance {γ : Type} (f : Store → γ) [Apart f Access] (b : Address) : Keeps f (enterBridge b) := by
  unfold enterBridge; infer_instance

/-- The guards change nothing that a payment looks at. -/
theorem yields_enterBridge (b : Address) (s : Store) : Yields (enterBridge b) ctx s fun _ t =>
    (t.book = s.book ∧ t.vault = s.vault) ∧ t.locked = s.locked :=
  ((Keeps.out _ _).and (Keeps.out _ _)).and (Keeps.out _ _)

section

set_option synthInstance.maxSize 200000

instance (xs : Records) (b : Address) (payment : Int) : Stable (Store.Under xs b) (repayLoan b payment) := by
  unfold repayLoan; infer_instance

end

theorem yields_repayLoan (b : Address) (payment : Int) (s : Store) : Yields (repayLoan b payment) ctx s fun _ t =>
    Effect ctx.toWorld s.book (.repay b payment) t.book ∧ Dropped s.records b t.records := by
  have hrecords : Yields (repayLoan b payment) ctx s fun _ t => t.Under s.records b :=
    Stable.out ctx s (Dropped.refl _ _)
  exact (repayLoan_effect b payment).and hrecords

theorem yields_repayWithSwap (b token : Address) (amount : Int) (s : PaymentStore) (hi : PaymentBooks s) :
    Yields (repayWithSwap b token amount) ctx s.bridge fun _ t =>
      PaymentEffect ctx.toWorld s { s with bridge := t } (.repayWithSwap b token amount) := by
  simp only [repayWithSwap, repayWithSwapInner, yields_bind, yields_parts]
  refine (yields_enterBridge b _).mono ?_
  rintro - x ⟨⟨hbook, hvault⟩, hlocked⟩
  simp only [yields_steps, yields_requireAllowedToken, yields_ite, yields_zoom]
  intro _ _ loan hloan
  replace hloan : s.core.book.bridgeLoan b = some loan := hbook ▸ hloan
  have hsolid := hi.solid _ _ (bridgeLoan_stored hi.keyed hloan)
  constructor
  · intro htoken
    refine (yields_repayLoan b amount x).mono ?_
    rintro - y ⟨heffect, hdropped⟩
    have hentered : x.records = s.core.records := congrArg Vault.records hvault
    rw [show x.book = s.core.book from hbook] at heffect
    rw [hentered] at hdropped
    simp only [releaseLock, yields_alter]
    exact .repaid hloan htoken rfl heffect hdropped
  · intro htoken
    have hwell : WellFormed (x.records b) := by
      have hentered : x.records = s.core.records := congrArg Vault.records hvault
      rw [hentered]
      exact hi.wellFormed b
    refine (yields_swapPayment b loan token amount { s.bridge with core := x } hsolid.repaid hwell).mono ?_
    rintro - y ⟨payment, hpos, hpayment, h⟩
    dsimp only at hpos hpayment h
    rw [show x.book = s.core.book from hbook, show x.vault = s.core.vault from hvault,
      show x.locked = s.core.locked from hlocked] at h
    simp only [releaseLock, yields_alter]
    rcases h with ⟨hopen, hv, hk⟩ | ⟨hall, hv, hk⟩
    · exact .swapped hloan htoken hpos hpayment hopen rfl hv hk
    · exact .swapSettled hloan htoken hpos hpayment hall rfl hv hk

theorem yields_repayCrossChainAtomic (chain id : Nat) (b : Address) (amount : Int) (attestation : BridgeAttestation)
    (s : PaymentStore) : Yields (repayCrossChainAtomic host chain id b amount attestation) ctx s.bridge fun _ t =>
      PaymentEffect ctx.toWorld s { s with bridge := t } (.repayCrossChainAtomic chain id b amount attestation) := by
  simp only [repayCrossChainAtomic, repayCrossChainAtomicInner, yields_bind, yields_parts]
  refine (yields_enterBridge b _).mono ?_
  rintro - x ⟨⟨hbook, hvault⟩, -⟩
  simp only [yields_steps]
  intro loan hloan hpos
  replace hloan : s.core.book.bridgeLoan b = some loan := hbook ▸ hloan
  refine (yields_true _ _ _).mono fun _ bridges _ => ?_
  simp only [applyAttestedRepayment, yields_steps, yields_parts, yields_collect, yields_i128, yields_onBook]
  intro _ _ _ _
  simp only [releaseLock, yields_alter]
  refine .attested hloan hpos rfl ?_ ?_
  · rw [← show x.vault = s.core.vault from hvault]
    rfl
  · rw [← show x.book = s.core.book from hbook]
    rfl

theorem yields_executeRecurringPayment (b : Address) (s : PaymentStore) :
    Yields (executeRecurringPayment b) ctx s fun _ t =>
      PaymentEffect ctx.toWorld s t (.executeRecurringPayment b) := by
  simp only [executeRecurringPayment, loadSchedule, requireActiveLoan, takeAllowed, applyScheduled, saveSchedule,
    yields_steps, yields_parts, yields_requireAllowedToken, yields_i128, yields_u64, yields_onBook,
    Bank.yields_transfer]
  refine (yields_true _ _ _).mono fun _ access _ => ?_
  intro config hconfig _ _ loan hloan _ _ _ _ _ _
  exact .scheduled hloan hconfig rfl rfl rfl rfl

theorem yields_setupRecurringPayment (b token : Address) (amount : Int) (frequencySecs startDate : Nat)
    (s : PaymentStore) : Yields (setupRecurringPayment b token amount frequencySecs startDate) ctx s fun _ t =>
      PaymentEffect ctx.toWorld s t (.setupRecurringPayment b token amount frequencySecs startDate) := by
  simp only [setupRecurringPayment, requireActiveLoan, saveSchedule, yields_steps, yields_parts, yields_requireAuth,
    yields_requireAllowedToken]
  intro _
  refine (yields_true _ _ _).mono fun _ access _ => ?_
  intro hpos _ _ _ _
  exact .scheduling rfl rfl (.inl hpos.1) rfl rfl

theorem yields_paymentOp (op : PaymentOp) (s : PaymentStore) (hi : PaymentBooks s) :
    Yields (op.run host) ctx s fun _ t => PaymentEffect ctx.toWorld s t op := by
  cases op with
  | core op =>
    simp only [PaymentOp.run, yields_parts]
    refine ((dispatch_effect op).and (dispatch_vouchEffect op)).mono ?_
    rintro - x ⟨hbook, hrecords⟩
    exact .core rfl hbook hrecords
  | repayWithSwap b token amount =>
    simp only [PaymentOp.run, yields_parts]
    exact yields_repayWithSwap b token amount s hi
  | repayCrossChainAtomic chain id b amount attestation =>
    simp only [PaymentOp.run, yields_parts]
    exact yields_repayCrossChainAtomic chain id b amount attestation s
  | setupRecurringPayment b token amount frequencySecs startDate =>
    exact yields_setupRecurringPayment b token amount frequencySecs startDate s
  | executeRecurringPayment b =>
    simp only [PaymentOp.run, discard, yields_steps]
    exact yields_executeRecurringPayment b s
  | recordRecurringPaymentFailure b =>
    simp only [PaymentOp.run, discard, recordRecurringPaymentFailure, loadSchedule, saveSchedule, yields_steps,
      yields_parts]
    exact fun old hold => .scheduling rfl rfl (.inr ⟨old, hold, rfl⟩) rfl rfl
  | terminateRecurringPayment b =>
    simp only [PaymentOp.run, terminateRecurringPayment, loadSchedule, saveSchedule, yields_steps, yields_requireAuth,
      yields_parts]
    exact fun _ old hold => .scheduling rfl rfl (.inr ⟨old, hold, rfl⟩) rfl rfl

end

end QuorumCredit
