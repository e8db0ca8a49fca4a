import QuorumCredit.Host.Script
import QuorumCredit.PaymentEffects
/-!
# The ways to pay, against `repay`

A payment over the bridge or out of a schedule leaves what `repay` leaves only while it
stays below what completes the loan, or, for a swap, where it is exactly what is open
and no withdrawal is queued.
-/

open Host Function

namespace QuorumCredit

/-! ## What holds in every state -/

theorem LoanBook.Solid.setLoan {k : LoanBook} (hs : k.Solid) {id : Nat} {new : LoanRecord} (hnew : new.Solid) :
    (k.setLoan id new).Solid := by
  intro i loan hloan
  rcases LoanBook.setLoan_cases hloan with ⟨-, rfl⟩ | ⟨-, hloan⟩
  · exact hnew
  · exact hs i loan hloan

/-- The record with more repaid on it, and perhaps settled. -/
structure PaidMore (old new : LoanRecord) : Prop where
  id : new.id = old.id
  borrower : new.borrower = old.borrower
  amount : new.amount = old.amount
  interest : new.accruedInterest = old.accruedInterest
  status : new.status = .repaid ∨ new.status = old.status
  more : old.amountRepaid ≤ new.amountRepaid

theorem PaidMore.stored {k k' : LoanBook} {old new : LoanRecord} (h : PaidMore old new) (hk : k.Keyed) (hs : k.Solid)
    (hloan : k.loan old.id = some old) (hbook : k' = k.setLoan old.id new) : k'.Keyed ∧ k'.Solid := by
  have hsolid := hs _ _ hloan
  have hstatus : new.status ≠ .none := by
    rcases h.status with hst | hst
    · rw [hst]
      decide
    · rw [hst]
      exact hk.status hloan
  rw [hbook]
  constructor
  · exact hk.setLoan hloan h.id h.borrower hstatus
  · apply hs.setLoan
    refine ⟨h.amount ▸ hsolid.amount, ?_, h.interest ▸ hsolid.interest⟩
    exact hsolid.repaid.trans h.more

theorem Vault.settledConverted_records (x : Vault) (w : World) (token b : Address)
    (dist : List YieldDistributionEntry) :
    (x.settledConverted w token b dist).records = update x.records b [] := by
  refine (Vouching.removeVouches_records _ b).trans ?_
  rw [Vouching.view_earnAll (f := Vouching.vouchesOf)]
  rfl

namespace PaymentBooks

variable {w : World} {s t : PaymentStore} {op : PaymentOp}

theorem congr (hi : PaymentBooks s) (hbook : t.core.book = s.core.book) (hrecords : t.core.records = s.core.records)
    (hrecurring : t.recurring.recurringPayment = s.recurring.recurringPayment) : PaymentBooks t := by
  constructor
  · rw [hbook]
    exact hi.keyed
  · rw [hbook]
    exact hi.solid
  · rw [hrecords]
    exact hi.wellFormed
  · rw [hrecurring]
    exact hi.positive

/-- A schedule written keeps a positive amount. -/
theorem positive_update (hi : PaymentBooks s) {b : Address} {config : RecurringPaymentConfig}
    (hamount : 0 < config.amount ∨
      ∃ old, s.recurring.recurringPayment b = some old ∧ config.amount = old.amount)
    (ht : t.recurring.recurringPayment = update s.recurring.recurringPayment b (some config)) :
    ∀ a c, t.recurring.recurringPayment a = some c → 0 < c.amount := by
  intro a c hc
  rw [ht, update_apply] at hc
  split at hc
  · cases hc
    rcases hamount with hpos | ⟨old, hold, hsame⟩
    · exact hpos
    · rw [hsame]
      exact hi.positive b old hold
  · exact hi.positive a c hc

theorem effect (hi : PaymentBooks s) (he : PaymentEffect w s t op) : PaymentBooks t := by
  have hkept : t.recurring = s.recurring → ∀ b config, t.recurring.recurringPayment b = some config →
      0 < config.amount := by
    intro hrec
    rw [hrec]
    exact hi.positive
  have hsame : ∀ {token b payment}, t.core.vault = s.core.vault.receives w token b payment →
      ∀ a, WellFormed (t.core.records a) := by
    intro token b payment hv a
    have hrecords : t.core.records = s.core.records := by
      change t.core.vault.records = _
      rw [hv]
      rfl
    rw [hrecords]
    exact hi.wellFormed a
  cases he with
  | core hrec hbook hvouches =>
    exact ⟨hi.keyed.effect hbook, hi.solid.effect hi.keyed hbook, hvouches.wellFormed hi.wellFormed,
      hrec ▸ hi.positive⟩
  | repaid _ _ hrec hbook hdropped =>
    refine ⟨hi.keyed.effect hbook, hi.solid.effect hi.keyed hbook, ?_, hkept hrec⟩
    obtain ⟨rest, hrest, ht⟩ := hdropped
    rw [ht]
    exact forall_update hi.wellFormed ((hi.wellFormed _).sublist hrest)
  | @swapped _ _ _ loan payment hloan _ hpos hpayment _ hrec hv hk =>
    have hmore : PaidMore loan { loan with amountRepaid := loan.amountRepaid + payment } :=
      ⟨rfl, rfl, rfl, rfl, .inr rfl, by dsimp only; omega⟩
    obtain ⟨hkeyed, hsolid⟩ := hmore.stored hi.keyed hi.solid (bridgeLoan_stored hi.keyed hloan) hk
    exact ⟨hkeyed, hsolid, hsame hv, hkept hrec⟩
  | @swapSettled b _ _ loan payment hloan _ hpos hpayment _ hrec hv hk =>
    have hmore : PaidMore loan
        { loan with
          amountRepaid := loan.amountRepaid + payment, status := .repaid, repaid := true
          repaymentTimestamp := some w.now } := ⟨rfl, rfl, rfl, rfl, .inl rfl, by dsimp only; omega⟩
    have hreleased : ((s.core.book.addRepayment b).setActiveLoan b none).Keyed :=
      (hi.keyed.release b).congr rfl rfl rfl le_rfl
    obtain ⟨hkeyed, hsolid⟩ := hmore.stored hreleased hi.solid (bridgeLoan_stored hi.keyed hloan) hk
    refine ⟨hkeyed, hsolid, ?_, hkept hrec⟩
    change ∀ a, WellFormed (t.core.vault.records a)
    rw [hv, Vault.settledConverted_records]
    exact forall_update hi.wellFormed .nil
  | @attested _ _ _ amount _ loan hloan hpos hrec hv hk =>
    have hmore : PaidMore loan
        { loan with
          amountRepaid := loan.amountRepaid + amount, repaymentTimestamp := some w.now
          status := if loan.amount + loan.totalYield ≤ loan.amountRepaid + amount then .repaid else loan.status } := by
      refine ⟨rfl, rfl, rfl, rfl, ?_, by dsimp only; omega⟩
      dsimp only
      split
      · exact .inl rfl
      · exact .inr rfl
    obtain ⟨hkeyed, hsolid⟩ := hmore.stored hi.keyed hi.solid (bridgeLoan_stored hi.keyed hloan) hk
    exact ⟨hkeyed, hsolid, hsame hv, hkept hrec⟩
  | @scheduled _ loan config _ hloan hconfig hrec hamount hv hk =>
    have hpos := hi.positive _ _ hconfig
    have hmore : PaidMore loan { loan with amountRepaid := loan.amountRepaid + config.amount } :=
      ⟨rfl, rfl, rfl, rfl, .inr rfl, by dsimp only; omega⟩
    obtain ⟨hkeyed, hsolid⟩ := hmore.stored hi.keyed hi.solid (hi.keyed.active_record hloan).2.1 hk
    exact ⟨hkeyed, hsolid, hsame hv, hi.positive_update (.inr ⟨_, hconfig, hamount⟩) hrec⟩
  | scheduling _ hrec hamount hk hrecords =>
    exact ⟨hk ▸ hi.keyed, hk ▸ hi.solid, hrecords ▸ hi.wellFormed, hi.positive_update hamount hrec⟩

end PaymentBooks

/-! ## Against `repay` -/

/-- The payment is worth no more than what is open, and where it brings the sum repaid
to what is owed, it leaves what `repay` leaves of one of the same worth. -/
structure SettlesAlike (w : World) (s t : Store) (p : OtherPayment) : Prop where
  within : p.worth ≤ p.loan.outstandingAt w.now
  settles : p.loan.amount + p.loan.totalYield ≤ p.loan.amountRepaid + p.worth →
    outcome w p.borrower p.loan.id s t = repayOutcome w p.borrower p.loan p.worth s

/-- Where the payment settles alike: a swap within what is open that, if it completes the
principal and the yield, is all that is open, with no withdrawal queued; another chain's
payment below what completes those; a scheduled payment below all that is open. -/
def OtherPayment.Fits (s : Situated World PaymentStore) (p : OtherPayment) : PaymentOp → Prop
  | .repayWithSwap .. => p.worth ≤ p.loan.outstandingAt s.world.now ∧
      (p.loan.amount + p.loan.totalYield ≤ p.loan.amountRepaid + p.worth →
        p.worth = p.loan.outstandingAt s.world.now ∧ s.store.core.vault.queue p.borrower = [])
  | .repayCrossChainAtomic .. => p.loan.amountRepaid + p.worth < p.loan.amount + p.loan.totalYield
  | _ => p.worth < p.loan.outstandingAt s.world.now

instance (s : Situated World PaymentStore) (p : OtherPayment) (op : PaymentOp) : Decidable (p.Fits s op) := by
  unfold OtherPayment.Fits
  split <;> infer_instance

section

variable {w : World} {b : Address} {loan : LoanRecord} {s t : PaymentStore}

/-- Interest comes on top of what is left of the principal and the yield. -/
theorem LoanRecord.Solid.left_le (hs : loan.Solid) (now : Nat) :
    loan.amount + loan.totalYield - loan.amountRepaid ≤ loan.outstandingAt now := by
  obtain ⟨hsame, -⟩ := accrueInterest_same now loan
  have hinterest := accrueInterest_nonneg now hs.interest
  unfold LoanRecord.outstandingAt LoanRecord.owed
  rw [hsame.amount, hsame.totalYield]
  omega

/-- What is left when the payment is only counted on the loan. -/
theorem counted_outcome {s t : Store} {token : Address} {amount : Int} {new : LoanRecord}
    (hv : t.vault = s.vault.receives w token b amount) (hk : t.book = s.book.setLoan loan.id new) :
    outcome w b loan.id s t = { outcome w b loan.id s s with status := some new.status } := by
  have hstatus : (t.book.loan loan.id).map (·.status) = some new.status := by
    rw [hk, LoanBook.setLoan_loan, update_self]
    rfl
  rw [← hstatus]
  apply outcome_kept
  · rw [hk]
    rfl
  · rw [hk]
    rfl
  · rw [hv]
    rfl
  · rw [hv]
    rfl

/-- What a settlement over the bridge leaves. -/
theorem settledConverted_outcome {s t : Store} {token : Address} {amount : Int} {new : LoanRecord}
    (hstatus : new.status = .repaid)
    (hv : t.vault = (s.vault.receives w token b amount).settledConverted w loan.tokenAddress b (s.locked loan.id))
    (hk : t.book = ((s.book.addRepayment b).setActiveLoan b none).setLoan loan.id new) :
    outcome w b loan.id s t =
      { status := some .repaid, activeLoan := none, vouches := none, withdrawalQueue := s.vault.queue b
        repaymentCount := s.book.repaymentCount b + 1
        payouts := payoutsBy w b (duePayouts w loan.tokenAddress (s.locked loan.id)
          (inToken loan.tokenAddress (s.vault.vouching.vouchesOf b))) } := by
  ext1
  · change (t.book.loan loan.id).map (·.status) = _
    rw [hk, LoanBook.setLoan_loan, update_self]
    exact congrArg some hstatus
  · change t.book.activeLoan b = none
    rw [hk]
    exact update_self ..
  · change t.vault.vouching.vouches b = none
    rw [hv]
    exact update_self ..
  · change t.vault.vouching.withdrawalQueue b = _
    rw [hv]
    exact congrFun (Vouching.view_earnAll (f := Vouching.withdrawalQueue) s.vault.vouching _ _) b
  · change t.book.repaymentCount b = _
    rw [hk]
    exact update_self ..
  · change payoutsBy w b t.vault.bank.log - payoutsBy w b s.vault.bank.log = _
    rw [hv]
    simp only [Vault.settledConverted, Vault.receives, payoutsBy_moves, payoutsBy_move]
    exact add_sub_cancel_right _ _

/-- With no withdrawal queued, `repay` pays out the same. -/
theorem repayOutcome_unqueued {s : Store} {payment : Int} (hall : payment = loan.outstandingAt w.now)
    (hqueue : s.vault.queue b = []) : repayOutcome w b loan payment s =
      { status := some .repaid, activeLoan := none, vouches := none, withdrawalQueue := s.vault.queue b
        repaymentCount := s.book.repaymentCount b + 1
        payouts := payoutsBy w b (duePayouts w loan.tokenAddress (s.locked loan.id)
          (inToken loan.tokenAddress (s.vault.vouching.vouchesOf b))) } := by
  have hrecords : s.vault.unqueued b = s.vault.vouching.vouchesOf b := by
    rw [Vault.unqueued, hqueue]
    rfl
  rw [repayOutcome, if_neg hall.not_lt, Vault.queueTransfers_nil hqueue, Vault.settledRecords, hrecords, hqueue]
  rfl

/-- A swap settles alike where it is all that is open, and leaves no queue behind. -/
theorem swapped_alike_iff {token : Address} {amount : Int} {p : OtherPayment}
    (he : PaymentEffect w s t (.repayWithSwap b token amount))
    (hp : (PaymentOp.repayWithSwap b token amount).payment s = some p) :
    SettlesAlike w s.core t.core p ↔ p.Fits ⟨w, s⟩ (.repayWithSwap b token amount) := by
  obtain ⟨loan, hactive, hpays⟩ := Option.bind_eq_some_iff.1 hp
  obtain ⟨hrecord, hstatus⟩ := PaymentStore.activeLoan_eq_some.1 hactive
  have hbridge := bridgeLoan_of_active hrecord hstatus
  cases he with
  | repaid hloan htoken =>
    obtain rfl := Option.some.inj (hbridge.symm.trans hloan)
    rw [if_pos htoken] at hpays
    cases hpays
  | swapped hloan htoken hpos hpayment hopen _ hv hk =>
    obtain rfl := Option.some.inj (hbridge.symm.trans hloan)
    rw [if_neg htoken] at hpays
    cases hpays
    -- the sum repaid does not come to what is owed
    constructor
    · intro h
      exact ⟨h.within, fun hall => by dsimp only at hall; omega⟩
    · intro h
      exact ⟨h.1, fun hall => by dsimp only at hall; omega⟩
  | swapSettled hloan htoken hpos hpayment hall _ hv hk =>
    obtain rfl := Option.some.inj (hbridge.symm.trans hloan)
    rw [if_neg htoken] at hpays
    cases hpays
    have hleft := settledConverted_outcome rfl hv hk
    have hcomes : loan.amount + loan.totalYield ≤
        loan.amountRepaid + s.bridge.swaps.converted token loan.tokenAddress amount := by omega
    constructor
    · rintro ⟨hwithin, hsettles⟩
      refine ⟨hwithin, fun _ => ?_⟩
      have hsame := hleft.symm.trans (hsettles hcomes)
      dsimp only at hwithin hsame ⊢
      rw [repayOutcome] at hsame
      split at hsame
      case isTrue =>
        have hst := congrArg Outcome.status hsame
        cases hst
      case isFalse hnot =>
        exact ⟨by omega, congrArg Outcome.withdrawalQueue hsame⟩
    · rintro ⟨hwithin, hexact⟩
      refine ⟨hwithin, fun _ => ?_⟩
      obtain ⟨hwhole, hqueue⟩ := hexact hcomes
      exact hleft.trans (repayOutcome_unqueued hwhole hqueue).symm
  | scheduling hnone =>
    rw [hp] at hnone
    cases hnone

/-- Another chain's payment settles alike only while it leaves the loan open. -/
theorem attested_alike_iff {chain id : Nat} {amount : Int} {a : BridgeAttestation} {p : OtherPayment}
    (hi : PaymentBooks s) (he : PaymentEffect w s t (.repayCrossChainAtomic chain id b amount a))
    (hp : (PaymentOp.repayCrossChainAtomic chain id b amount a).payment s = some p) :
    SettlesAlike w s.core t.core p ↔ p.Fits ⟨w, s⟩ (.repayCrossChainAtomic chain id b amount a) := by
  obtain ⟨loan, hactive, rfl⟩ := Option.map_eq_some_iff.1 hp
  obtain ⟨hrecord, hstatus⟩ := PaymentStore.activeLoan_eq_some.1 hactive
  obtain ⟨hpointer, hstored, -⟩ := hi.keyed.active_record hrecord
  have hinterest := (hi.solid _ _ hstored).left_le w.now
  cases he with
  | attested hloan hpos hrec hv hk =>
    obtain rfl := Option.some.inj ((bridgeLoan_of_active hrecord hstatus).symm.trans hloan)
    have hkept := counted_outcome hv hk
    constructor
    · rintro ⟨hwithin, hsettles⟩
      by_contra hall
      have hcomes : loan.amount + loan.totalYield ≤ loan.amountRepaid + amount := not_lt.1 hall
      have hsame := hkept.symm.trans (hsettles hcomes)
      rw [if_pos hcomes, repayOutcome] at hsame
      split at hsame
      case isTrue =>
        have hst := congrArg Outcome.status hsame
        cases hst
      case isFalse =>
        -- the borrower still has the loan
        have hptr := congrArg Outcome.activeLoan hsame
        cases hpointer.symm.trans hptr
    · intro hopen
      replace hopen : loan.amountRepaid + amount < loan.amount + loan.totalYield := hopen
      refine ⟨?_, fun hcomes => absurd hcomes hopen.not_ge⟩
      dsimp only
      omega
  | scheduling hnone =>
    rw [hp] at hnone
    cases hnone

/-- A scheduled payment leaves the loan open, so it settles alike while `repay` does too. -/
theorem scheduled_alike_iff {p : OtherPayment} (hi : PaymentBooks s)
    (he : PaymentEffect w s t (.executeRecurringPayment b))
    (hp : (PaymentOp.executeRecurringPayment b).payment s = some p) :
    SettlesAlike w s.core t.core p ↔ p.Fits ⟨w, s⟩ (.executeRecurringPayment b) := by
  obtain ⟨loan, hactive, hpays⟩ := Option.bind_eq_some_iff.1 hp
  obtain ⟨config, hconfig, rfl⟩ := Option.map_eq_some_iff.1 hpays
  obtain ⟨hrecord, hstatus⟩ := PaymentStore.activeLoan_eq_some.1 hactive
  obtain ⟨hpointer, hstored, -⟩ := hi.keyed.active_record hrecord
  have hinterest := (hi.solid _ _ hstored).left_le w.now
  cases he with
  | scheduled hloan hconfig' hrec hamount hv hk =>
    obtain rfl := Option.some.inj (hrecord.symm.trans hloan)
    obtain rfl := Option.some.inj (hconfig.symm.trans hconfig')
    have hkept := counted_outcome hv hk
    dsimp only at hkept
    rw [hstatus] at hkept
    constructor
    · rintro ⟨hwithin, hsettles⟩
      by_contra hall
      have hwhole : loan.outstandingAt w.now ≤ config.amount := not_lt.1 hall
      have hsame := hkept.symm.trans (hsettles (by dsimp only; omega))
      rw [repayOutcome, if_neg (not_lt.2 hwhole)] at hsame
      have hst := congrArg Outcome.status hsame
      cases hst
    · intro hbelow
      replace hbelow : config.amount < loan.outstandingAt w.now := hbelow
      refine ⟨hbelow.le, fun _ => ?_⟩
      rw [repayOutcome, if_pos hbelow]
      exact hkept
  | scheduling hnone =>
    rw [hp] at hnone
    cases hnone

theorem PaymentEffect.alike_iff {op : PaymentOp} {p : OtherPayment} (hi : PaymentBooks s)
    (he : PaymentEffect w s t op) (hp : op.payment s = some p) : SettlesAlike w s.core t.core p ↔ p.Fits ⟨w, s⟩ op := by
  cases op with
  | repayWithSwap b token amount => exact swapped_alike_iff he hp
  | repayCrossChainAtomic chain id b amount a => exact attested_alike_iff hi he hp
  | executeRecurringPayment b => exact scheduled_alike_iff hi he hp
  | core op => cases hp
  | setupRecurringPayment => cases hp
  | recordRecurringPaymentFailure => cases hp
  | terminateRecurringPayment => cases hp

end

/-! ## Every run -/

/-- The payment of the call on an active loan, if it makes one, fits. -/
def PaymentOp.Fits (s : Situated World PaymentStore) (op : PaymentOp) : Prop := ∀ p ∈ op.payment s.store, p.Fits s op

instance (s : Situated World PaymentStore) (op : PaymentOp) : Decidable (op.Fits s) :=
  inferInstanceAs (Decidable (∀ p ∈ op.payment s.store, p.Fits s op))

section

variable (host : BridgeHost)

/-- Every payment of the run on an active loan settles alike. -/
def PaysAlike : PaymentHistory → Prop :=
  Along fun s e => ∀ d ∈ (repayments host).done s e, ∀ p ∈ d.1.payment s.store,
    SettlesAlike s.world s.store.core d.2.core p

end

section

variable {host : BridgeHost} {world : World} {bank : Ledger} {h : PaymentHistory} {s : Situated World PaymentStore}

theorem paymentEffect_of {signers : List Address} {op : PaymentOp} {t : PaymentStore} (hi : PaymentBooks s.store)
    (he : (repayments host).exec s signers op = some t) : PaymentEffect s.world s.store t op :=
  Component.exec_yields (Q := fun t => PaymentEffect s.world s.store t op) (yields_paymentOp op s.store hi) he

theorem paymentBooks_start (world : World) (bank : Ledger) : PaymentBooks (paymentStart world bank).store := by
  constructor
  · exact LoanBook.keyed_empty
  · intro id loan hloan
    cases hloan
  · intro b
    exact .nil
  · intro b config hconfig
    cases hconfig

theorem paymentBooks_run (hr : Run (repayments host).Step (paymentStart world bank) h s) : PaymentBooks s.store := by
  apply Component.always (C := repayments host) (I := PaymentBooks) (paymentBooks_start world bank) _ _ hr
  · intro s signers op t hi he
    exact hi.effect (paymentEffect_of hi he)
  · rintro w x w' x' hi ⟨-, -, hbook, hrecords, hrecurring⟩
    exact hi.congr hbook hrecords hrecurring

/-- A payment that settled as `repay` would fits. -/
theorem fits_of_paysAlike {signers : List Address} {op : PaymentOp} {t : PaymentStore} (hbooks : PaymentBooks s.store)
    (he : (repayments host).exec s signers op = some t) (halike : PaysAlike host ((s, .call signers op) :: h)) :
    op.Fits s := by
  rw [PaysAlike, Along, List.forall_mem_cons] at halike
  intro p hp
  apply ((paymentEffect_of hbooks he).alike_iff hbooks hp).1
  exact halike.1 _ (Component.done_call he) p hp

/-- The payments of a run settle alike exactly if each of them fits; and `repay` leaves
what they are compared with, on whatever active loan it takes a payment. -/
theorem payments_settle_alike_iff (hr : Run (repayments host).Step (paymentStart world bank) h s) :
    (PaysAlike host h ↔ Along ((repayments host).WhenDone fun s op => op.Fits s) h) ∧
      ∀ signers b payment loan r, s.store.core.book.getActiveLoanRecord b = some loan → loan.status = .active →
        exec ⟨signers, .repay b payment⟩ ⟨s.world, s.store.core⟩ = .ok r →
          outcome s.world b loan.id s.store.core r = repayOutcome s.world b loan payment s.store.core := by
  constructor
  · rw [PaysAlike, along_iff_throughout, along_iff_throughout]
    refine hr.throughout_congr fun {_ s e} hr => ?_
    have hbooks := paymentBooks_run hr
    refine forall₂_congr fun d hd => ?_
    obtain ⟨op, t⟩ := d
    obtain ⟨signers, rfl, he⟩ := Component.of_done hd
    exact forall₂_congr fun p hp => (paymentEffect_of hbooks he).alike_iff hbooks hp
  · intro signers b payment loan r ho hactive hd
    have hbooks := paymentBooks_run hr
    exact repay_outcome (s := ⟨s.world, s.store.core⟩) hbooks.keyed hbooks.solid ho hactive hd

end

/-! ## Two swaps, and one too large -/

/-- A host on which no signature verifies. -/
def unsignedHost : BridgeHost :=
  { toXdr := fun _ => [], sha256 := fun _ => .replicate 32 0, ed25519Verify := fun _ _ _ => false }

/-- Account 10 owes 510000 in token 100 on loan 2, backed by account 2. -/
def owingLoan : List (List Address × PaymentOp) :=
  [([2], .core (.vouch 2 10 1000000 100 0)), ([1], .core (.initializeLoanCovenants 2 10000 10000 31536000)),
    ([10], .core (.requestLoan 10 500000 0 "stock" 100))]

def paidHistory (payments : List (List Address × PaymentOp)) : PaymentHistory :=
  (repayments unsignedHost).trace (paymentStart sampleWorld sampleBank) [] (owingLoan ++ payments)

def paidState (payments : List (List Address × PaymentOp)) : Situated World PaymentStore :=
  (repayments unsignedHost).play (paymentStart sampleWorld sampleBank) (owingLoan ++ payments)

theorem run_paid (payments : List (List Address × PaymentOp)) :
    Run (repayments unsignedHost).Step (paymentStart sampleWorld sampleBank) (paidHistory payments)
      (paidState payments) :=
  Component.run_play _ .nil _

/-- The whole debt in token 101, in two payments. -/
def exactSwaps : List (List Address × PaymentOp) :=
  [([10], .repayWithSwap 10 101 100000), ([10], .repayWithSwap 10 101 410000)]

/-- The second swap completes the loan as `repay` would. -/
theorem payments_settle_alike_exact : PaysAlike unsignedHost (paidHistory exactSwaps) ∧
    ((paidState exactSwaps).store.core.book.loan 2).map (·.status) = some .repaid := by
  constructor
  · refine (payments_settle_alike_iff (run_paid exactSwaps)).1.2 ?_
    unfold Along
    decide +kernel
  · decide +kernel

/-- A swap of 600000 on the same debt: 510000 of it is counted, and all of it kept. -/
theorem payments_settle_alike_overpaid :
    ¬ ∀ host world bank h s, Run (repayments host).Step (paymentStart world bank) h s → PaysAlike host h := by
  intro hclaim
  have halike := hclaim _ _ _ _ _ (run_paid [([10], .repayWithSwap 10 101 600000)])
  have hbooks := paymentBooks_run (run_paid [])
  have hdone : ((repayments unsignedHost).exec (paidState []) [10] (.repayWithSwap 10 101 600000)).isSome := by
    decide +kernel
  have he := Component.exec_of_isSome hdone
  have hlast : paidHistory [([10], .repayWithSwap 10 101 600000)] =
      (paidState [], .call [10] (.repayWithSwap 10 101 600000)) :: paidHistory [] := by
    rw [paidHistory, paidState, paidHistory, List.append_nil]
    exact Component.trace_concat _ _ _ owingLoan _ _
  rw [hlast] at halike
  exact absurd (fits_of_paysAlike hbooks he halike) (by decide +kernel)

end QuorumCredit
