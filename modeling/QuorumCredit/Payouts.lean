import QuorumCredit.Repaying
import QuorumCredit.Stakes
/-!
# What a settlement pays

The two loops that move vouched stakes out of the contract, each with the exact
condition under which it goes through and what it leaves: the withdrawal queue,
and the payout to the vouchers of a loan that has been repaid. Both are a list of
transfers that depends only on the records, and each transfer needs the
contract's balance to cover it.
-/

open Host Function

namespace QuorumCredit

/-! ## The withdrawal queue -/

/-- The records that are left when every queued voucher's first record is taken out. -/
def unqueued (vouches : List VouchRecord) : List QueuedWithdrawal → List VouchRecord
  | [] => vouches
  | queued :: queue => unqueued (removeVouch queued.voucher vouches) queue

theorem sublist_of_unqueued (vouches : List VouchRecord) (queue : List QueuedWithdrawal) :
    (unqueued vouches queue).Sublist vouches := by
  induction queue generalizing vouches with
  | nil => exact .refl vouches
  | cons queued queue ih => exact (ih _).trans (removeVouch_sublist _ _)

/-- What the queue pays: each queued voucher's first record in full, if its token is allowed. -/
def queuePayments (w : World) (vouches : List VouchRecord) : List QueuedWithdrawal → List (Transfer Address Address)
  | [] => []
  | queued :: queue =>
    (match findVouch queued.voucher vouches with
      | some v => if w.Allows v.token then [w.payment v.token v.voucher v.stake] else []
      | none => []) ++ queuePayments w (removeVouch queued.voucher vouches) queue

def queuedFees (queue : List QueuedWithdrawal) : Int := (queue.map (·.priorityFee)).sum

/-- The token the fees are shared out in, if they are: that of the first entry. -/
def feeToken (w : World) (queue : List QueuedWithdrawal) (vouches : List VouchRecord) : Option Address :=
  match queue with
  | [] => none
  | first :: _ =>
    if 0 < queuedFees queue ∧ 0 < stakeSum vouches ∧ w.Allows first.token then some first.token else none

/-- The fees of the queue go to the records that are left. -/
def feePayments (w : World) (queue : List QueuedWithdrawal) (vouches : List VouchRecord) :
    List (Transfer Address Address) :=
  match feeToken w queue vouches with
  | some token => feeShares w token (queuedFees queue) (stakeSum vouches) vouches
  | none => []

/-- The figures of the fee shares fit. -/
structure FeesFit (w : World) (queue : List QueuedWithdrawal) (vouches : List VouchRecord) : Prop where
  total : 0 < queuedFees queue → SumFits 0 (vouches.map (·.stake))
  shares : feeToken w queue vouches ≠ none → ∀ v ∈ vouches,
    FitsI128 (queuedFees queue * v.stake) ∧ FitsI128 ((queuedFees queue * v.stake).tdiv (stakeSum vouches))

section Queue

variable {ctx : Context}

theorem goes_processEntries (queue : List QueuedWithdrawal) (vouches : List VouchRecord) (b : Ledger)
    (Q : List VouchRecord → Ledger → Prop) :
    Goes (processEntries vouches queue) ctx b Q ↔ b.Covers (queuePayments ctx.toWorld vouches queue) ∧
      Q (unqueued vouches queue) (b.moves (queuePayments ctx.toWorld vouches queue)) := by
  induction queue generalizing vouches b with
  | nil => simp [processEntries, queuePayments, unqueued]
  | cons queued queue ih =>
    simp only [processEntries, goes_bind, ih, queuePayments, unqueued, Bank.covers_append, Bank.moves_append]
    unfold processEntry
    cases hfind : findVouch queued.voucher vouches with
    | none => simp [removeVouch_of_none hfind]
    | some v =>
      simp only [goes_bind, goes_ask, goes_ite, goes_pay, goes_pure]
      by_cases hallowed : ctx.toWorld.Allows v.token
      · have hcode : v.token = ctx.config.token ∨ v.token ∈ ctx.config.allowedTokens := hallowed
        simp only [hcode, hallowed, if_true, Bank.Covers, Bank.moves, World.payment, not_true, forall_const, and_true,
          false_implies, and_assoc]
      · have hcode : ¬ (v.token = ctx.config.token ∨ v.token ∈ ctx.config.allowedTokens) := hallowed
        simp [hcode, hallowed]

theorem goes_payFeeShares (token : Address) (fees total : Int) (htotal : total ≠ 0) (vouches : List VouchRecord)
    (b : Ledger) (Q : Unit → Ledger → Prop) :
    Goes (payFeeShares token fees total vouches) ctx b Q ↔
      (∀ v ∈ vouches, FitsI128 (fees * v.stake) ∧ FitsI128 ((fees * v.stake).tdiv total)) ∧
      b.Covers (feeShares ctx.toWorld token fees total vouches) ∧
      Q () (b.moves (feeShares ctx.toWorld token fees total vouches)) := by
  induction vouches generalizing b with
  | nil => simp [payFeeShares, feeShares]
  | cons v vs ih =>
    simp only [payFeeShares, goes_bind, goes_i128, goes_divI128, goes_ite, goes_pay, ih, List.forall_mem_cons]
    by_cases hshare : 0 < (fees * v.stake).tdiv total
    · have hcons : feeShares ctx.toWorld token fees total (v :: vs) =
          ctx.toWorld.payment token v.voucher ((fees * v.stake).tdiv total) ::
            feeShares ctx.toWorld token fees total vs := List.filterMap_cons_some (if_pos hshare)
      rw [hcons]
      simp only [Bank.Covers, Bank.moves, World.payment, hshare, hshare.le, true_implies, not_true, false_implies]
      tauto
    · have hcons : feeShares ctx.toWorld token fees total (v :: vs) = feeShares ctx.toWorld token fees total vs :=
        List.filterMap_cons_none (if_neg hshare)
      rw [hcons]
      simp only [hshare, false_implies, not_false_iff, true_implies]
      tauto

theorem goes_distributeFees (queue : List QueuedWithdrawal) (vouches : List VouchRecord) (b : Ledger)
    (Q : Unit → Ledger → Prop) :
    Goes (distributeFees queue (queuedFees queue) vouches) ctx b Q ↔ FeesFit ctx.toWorld queue vouches ∧
      b.Covers (feePayments ctx.toWorld queue vouches) ∧ Q () (b.moves (feePayments ctx.toWorld queue vouches)) := by
  have hstakes : 0 + (vouches.map (·.stake)).sum = stakeSum vouches := Int.zero_add _
  have hsplit : FeesFit ctx.toWorld queue vouches ↔ (0 < queuedFees queue → SumFits 0 (vouches.map (·.stake))) ∧
      (feeToken ctx.toWorld queue vouches ≠ none → ∀ v ∈ vouches, FitsI128 (queuedFees queue * v.stake) ∧
        FitsI128 ((queuedFees queue * v.stake).tdiv (stakeSum vouches))) :=
    ⟨fun h => ⟨h.total, h.shares⟩, fun h => ⟨h.1, h.2⟩⟩
  simp only [distributeFees, goes_bind, goes_ask, goes_ite, goes_sumI128, goes_pure, hstakes, hsplit, feePayments]
  by_cases hfees : 0 < queuedFees queue
  · cases queue with
    | nil => simp [queuedFees] at hfees
    | cons first rest =>
      by_cases hpays : 0 < stakeSum vouches ∧ ctx.toWorld.Allows first.token
      · have htoken : feeToken ctx.toWorld (first :: rest) vouches = some first.token := if_pos ⟨hfees, hpays⟩
        have hcode : 0 < stakeSum vouches ∧ (first.token = ctx.config.token ∨ first.token ∈ ctx.config.allowedTokens) :=
          hpays
        simp [goes_payFeeShares _ _ _ hpays.1.ne', htoken, hfees, hcode, and_assoc]
      · have htoken : feeToken ctx.toWorld (first :: rest) vouches = none := if_neg fun h => hpays h.2
        have hcode : ¬ (0 < stakeSum vouches ∧
            (first.token = ctx.config.token ∨ first.token ∈ ctx.config.allowedTokens)) :=
          hpays
        simp [htoken, hfees, hcode]
  · have htoken : feeToken ctx.toWorld queue vouches = none := by
      unfold feeToken
      split
      · rfl
      · exact if_neg fun h => hfees h.1
    simp [htoken, hfees]

end Queue

namespace Vault

/-- The queue of withdrawals from the vouches for `b`. -/
def queue (x : Vault) (b : Address) : List QueuedWithdrawal := x.vouching.withdrawalQueue b

/-- The records of `b` the queue leaves. -/
def unqueued (x : Vault) (b : Address) : List VouchRecord := QuorumCredit.unqueued (x.vouching.vouchesOf b) (x.queue b)

/-- Every transfer processing the queue makes. -/
def queueTransfers (x : Vault) (w : World) (b : Address) : List (Transfer Address Address) :=
  queuePayments w (x.vouching.vouchesOf b) (x.queue b) ++ feePayments w (x.queue b) (x.unqueued b)

theorem queueTransfers_nil {x : Vault} {b : Address} (h : x.queue b = []) (w : World) : x.queueTransfers w b = [] := by
  rw [queueTransfers, unqueued, h]
  rfl

/-- The contract holds what the queue pays, and the figures fit. -/
structure CanDrain (x : Vault) (w : World) (b : Address) : Prop where
  fees : SumFits 0 ((x.queue b).map (·.priorityFee))
  shares : FeesFit w (x.queue b) (x.unqueued b)
  covered : x.bank.Covers (x.queueTransfers w b)

/-- The vault with the queue of `b` processed. -/
def drained (x : Vault) (w : World) (b : Address) : Vault :=
  if x.queue b = [] then x
  else
    { bank := x.bank.moves (x.queueTransfers w b)
      vouching := (x.vouching.setVouches b (x.unqueued b)).setQueue b [] }

theorem drained_bank (x : Vault) (w : World) (b : Address) :
    (x.drained w b).bank = x.bank.moves (x.queueTransfers w b) := by
  unfold drained
  split
  case isTrue h => rw [queueTransfers_nil h, Bank.moves_nil]
  case isFalse => rfl

theorem drained_vouches (x : Vault) (w : World) (b : Address) :
    (x.drained w b).vouching.vouchesOf b = x.unqueued b := by
  unfold drained
  split
  case isTrue h => rw [unqueued, h, QuorumCredit.unqueued]
  case isFalse =>
    change (x.vouching.setVouches b (x.unqueued b)).vouchesOf b = x.unqueued b
    rw [Vouching.setVouches_records, update_self]

theorem unqueued_sublist (x : Vault) (b : Address) : (x.unqueued b).Sublist (x.vouching.vouchesOf b) :=
  sublist_of_unqueued ..

end Vault

theorem goes_processWithdrawalQueue (b : Address) (ctx : Context) (x : Vault) (Q : Unit → Vault → Prop) :
    Goes (processWithdrawalQueue b) ctx x Q ↔ x.CanDrain ctx.toWorld b ∧ Q () (x.drained ctx.toWorld b) := by
  simp only [processWithdrawalQueue, goes_bind, goes_look, goes_ite, goes_pure, goes_sumI128, yields_parts, goes_zoom,
    goes_processEntries, goes_alter]
  have hfees : 0 + ((x.queue b).map (·.priorityFee)).sum = queuedFees (x.queue b) := Int.zero_add _
  by_cases hempty : x.queue b = []
  · have hdrain : x.CanDrain ctx.toWorld b := by
      refine ⟨hempty ▸ trivial, ⟨fun h => ?_, fun h => ?_⟩, Vault.queueTransfers_nil hempty _ ▸ trivial⟩
      · rw [hempty] at h
        cases h
      · rw [hempty] at h
        exact absurd rfl h
    have hcode : x.vouching.withdrawalQueue b = [] := hempty
    simp [hdrain, hcode, Vault.drained, hempty]
  · have hcode : ¬ x.vouching.withdrawalQueue b = [] := hempty
    simp only [hcode, false_implies, true_and, not_false_iff, true_implies]
    change (SumFits 0 ((x.queue b).map (·.priorityFee)) ∧
      x.bank.Covers (queuePayments ctx.toWorld (x.vouching.vouchesOf b) (x.queue b)) ∧
        Goes (distributeFees (x.queue b) (0 + ((x.queue b).map (·.priorityFee)).sum) (x.unqueued b)) ctx
          (x.bank.moves (queuePayments ctx.toWorld (x.vouching.vouchesOf b) (x.queue b))) _) ↔ _
    rw [hfees, goes_distributeFees]
    constructor
    · rintro ⟨hsum, hpaid, hshares, hcovered, hq⟩
      refine ⟨⟨hsum, hshares, (Bank.covers_append ..).2 ⟨hpaid, hcovered⟩⟩, ?_⟩
      rw [Vault.drained, if_neg hempty, Vault.queueTransfers, Bank.moves_append]
      exact hq
    · rintro ⟨⟨hsum, hshares, hcovered⟩, hq⟩
      obtain ⟨hpaid, hcovered⟩ := (Bank.covers_append ..).1 hcovered
      rw [Vault.drained, if_neg hempty, Vault.queueTransfers, Bank.moves_append] at hq
      exact ⟨hsum, hpaid, hshares, hcovered, hq⟩

/-! ## The vouchers of a repaid loan -/

/-- The yield the distribution records for a voucher. -/
def yieldOf (dist : List YieldDistributionEntry) (voucher : Address) : Int :=
  ((dist.find? fun e => e.voucher = voucher).map (·.yieldAmount)).getD 0

/-- A stake's share of the penalty. -/
def penaltyShare (penalty total : Int) (v : VouchRecord) : Int :=
  if 0 < total then (penalty * v.stake).tdiv total else 0

/-- What a stake earns on top for the liquidity tier of its token. -/
def tierExtra (w : World) (token : Address) (v : VouchRecord) : Int :=
  (v.stake * liquidityTierBonusBps w token).tdiv bpsDenominator

/-- What the settlement of a loan in `token` pays for a record. -/
def payoutOf (w : World) (token : Address) (dist : List YieldDistributionEntry) (penalty total : Int)
    (v : VouchRecord) : Int :=
  v.stake + yieldOf dist v.voucher + penaltyShare penalty total v + tierExtra w token v

/-- The figures of one payout fit. -/
structure PayoutFits (w : World) (token : Address) (dist : List YieldDistributionEntry) (penalty total : Int)
    (v : VouchRecord) : Prop where
  share : FitsI128 (if 0 < total then penalty * v.stake else 0)
  tier : FitsI128 (v.stake * liquidityTierBonusBps w token)
  payout : FitsI128 (payoutOf w token dist penalty total v)

/-- The transfers of the settlement, for the records in the loan's token. -/
def payouts (w : World) (token : Address) (dist : List YieldDistributionEntry) (penalty total : Int)
    (settled : List VouchRecord) : List (Transfer Address Address) :=
  settled.filterMap fun v =>
    if 0 < payoutOf w token dist penalty total v then
      some (w.payment token v.voucher (payoutOf w token dist penalty total v))
    else none

/-- One more successful vouch in a voucher's statistics, with what it has earned. -/
def Vouching.earn (x : Vouching) (voucher : Address) (earned : Int) : Vouching :=
  x.setStats voucher
    { x.statsOf voucher with
      successfulVouches := (x.statsOf voucher).successfulVouches + 1
      totalYieldEarned := (x.statsOf voucher).totalYieldEarned + earned }

/-- The statistics after the vouchers of `settled` have earned `earned` of each record. -/
def Vouching.earnAll (x : Vouching) (earned : VouchRecord → Int) : List VouchRecord → Vouching
  | [] => x
  | v :: vs => (x.earn v.voucher (earned v)).earnAll earned vs

/-- No total in the statistics overflows on the way. -/
def Vouching.EarningsFit (x : Vouching) (earned : VouchRecord → Int) : List VouchRecord → Prop
  | [] => True
  | v :: vs =>
    FitsI128 ((x.statsOf v.voucher).totalYieldEarned + earned v) ∧ (x.earn v.voucher (earned v)).EarningsFit earned vs

/-- What the statistics count as earned on a record: its yield and the tier bonus. -/
def earnedOn (w : World) (token : Address) (dist : List YieldDistributionEntry) (v : VouchRecord) : Int :=
  yieldOf dist v.voucher + tierExtra w token v

section

variable (token : Address) (dist : List YieldDistributionEntry) (penalty total : Int) (ctx : Context)

theorem payoutFits_iff (v : VouchRecord) : PayoutFits ctx.toWorld token dist penalty total v ↔
    FitsI128 (if 0 < total then penalty * v.stake else 0) ∧
      FitsI128 (v.stake * liquidityTierBonusBps ctx.toWorld token) ∧
      FitsI128 (payoutOf ctx.toWorld token dist penalty total v) :=
  ⟨fun h => ⟨h.share, h.tier, h.payout⟩, fun h => ⟨h.1, h.2.1, h.2.2⟩⟩

theorem goes_addYieldEarned (voucher : Address) (earned : Int) (y : Vouching) (Q : Unit → Vouching → Prop) :
    Goes (addYieldEarned voucher earned) ctx y Q ↔
      FitsI128 ((y.statsOf voucher).totalYieldEarned + earned) ∧ Q () (y.earn voucher earned) := by
  simp only [addYieldEarned, goes_bind, goes_look, goes_i128, goes_alter, Vouching.earn]

theorem goes_payoutVoucher (v : VouchRecord) (x : Vault) (Q : Unit → Vault → Prop) :
    Goes (payoutVoucher token dist penalty total v) ctx x Q ↔ PayoutFits ctx.toWorld token dist penalty total v ∧
      x.bank.Covers (payouts ctx.toWorld token dist penalty total [v]) ∧
      FitsI128 ((x.vouching.statsOf v.voucher).totalYieldEarned + earnedOn ctx.toWorld token dist v) ∧
      Q () ⟨x.bank.moves (payouts ctx.toWorld token dist penalty total [v]),
        x.vouching.earn v.voucher (earnedOn ctx.toWorld token dist v)⟩ := by
  -- the share is computed from a product that is zero where there is none
  have hshare : (if 0 < total then (if 0 < total then penalty * v.stake else 0).tdiv total else 0) =
      penaltyShare penalty total v := by
    unfold penaltyShare
    split <;> rfl
  rw [payoutFits_iff, payoutVoucher]
  simp only [goes_bind, goes_ask, goes_i128, hshare, yields_parts, and_assoc]
  change _ ∧ _ ∧ FitsI128 (payoutOf ctx.toWorld token dist penalty total v) ∧
    Goes (if 0 < payoutOf ctx.toWorld token dist penalty total v then do
        zoom (pay token v.voucher (payoutOf ctx.toWorld token dist penalty total v))
        zoom (addYieldEarned v.voucher (earnedOn ctx.toWorld token dist v))
      else zoom (addYieldEarned v.voucher (earnedOn ctx.toWorld token dist v))) ctx x Q ↔ _
  by_cases hpays : 0 < payoutOf ctx.toWorld token dist penalty total v
  · have hpayout : payouts ctx.toWorld token dist penalty total [v] =
        [ctx.toWorld.payment token v.voucher (payoutOf ctx.toWorld token dist penalty total v)] :=
      List.filterMap_cons_some (if_pos hpays)
    rw [hpayout, if_pos hpays]
    simp only [goes_bind, goes_zoom, goes_pay, goes_addYieldEarned, Bank.Covers, Bank.moves, World.payment, and_true]
    exact Iff.rfl
  · have hpayout : payouts ctx.toWorld token dist penalty total [v] = [] := List.filterMap_cons_none (if_neg hpays)
    rw [hpayout, if_neg hpays]
    simp only [goes_zoom, goes_addYieldEarned, Bank.covers_nil, Bank.moves_nil, true_and]
    exact Iff.rfl

theorem goes_payoutVouchers (vouches : List VouchRecord) (x : Vault) (Q : Unit → Vault → Prop) :
    Goes (payoutVouchers token dist penalty total vouches) ctx x Q ↔
      (∀ v ∈ inToken token vouches, PayoutFits ctx.toWorld token dist penalty total v) ∧
      x.bank.Covers (payouts ctx.toWorld token dist penalty total (inToken token vouches)) ∧
      x.vouching.EarningsFit (earnedOn ctx.toWorld token dist) (inToken token vouches) ∧
      Q () ⟨x.bank.moves (payouts ctx.toWorld token dist penalty total (inToken token vouches)),
        x.vouching.earnAll (earnedOn ctx.toWorld token dist) (inToken token vouches)⟩ := by
  induction vouches generalizing x with
  | nil => simp [payoutVouchers, inToken, payouts, Vouching.EarningsFit, Vouching.earnAll]
  | cons v vs ih =>
    by_cases htoken : v.token = token
    · have hsettled : inToken token (v :: vs) = v :: inToken token vs := List.filter_cons_of_pos (by simpa using htoken)
      have hpayouts : payouts ctx.toWorld token dist penalty total (v :: inToken token vs) =
          payouts ctx.toWorld token dist penalty total [v] ++ payouts ctx.toWorld token dist penalty total
            (inToken token vs) :=
        List.filterMap_append (l := [v])
      rw [payoutVouchers, if_pos htoken, goes_bind, goes_payoutVoucher, ih, hsettled, hpayouts, Bank.covers_append,
        Bank.moves_append, List.forall_mem_cons, Vouching.EarningsFit, Vouching.earnAll]
      constructor
      · rintro ⟨hfits, hcovered, hearned, hrest, hrestCovered, hrestEarned, hq⟩
        exact ⟨⟨hfits, hrest⟩, ⟨hcovered, hrestCovered⟩, ⟨hearned, hrestEarned⟩, hq⟩
      · rintro ⟨⟨hfits, hrest⟩, ⟨hcovered, hrestCovered⟩, ⟨hearned, hrestEarned⟩, hq⟩
        exact ⟨hfits, hcovered, hearned, hrest, hrestCovered, hrestEarned, hq⟩
    · have hsettled : inToken token (v :: vs) = inToken token vs := List.filter_cons_of_neg (by simpa using htoken)
      rw [payoutVouchers, if_neg htoken, ih, hsettled]

end

/-! ## The whole settlement -/

/-- The share of the loan's term that is left, in basis points. -/
def earlyRatioBps (w : World) (loan : LoanRecord) : Int :=
  ((loan.deadline - w.now : Nat) * 10000 : Int).tdiv (loan.deadline - loan.disbursementTimestamp : Nat)

/-- The loan is repaid too late for a bonus, or there is none. -/
def NoBonus (w : World) (loan : LoanRecord) : Prop :=
  loan.deadline ≤ w.now ∨ w.prepaymentBonusBps = 0 ∨ loan.deadline - loan.disbursementTimestamp = 0

instance (w : World) (loan : LoanRecord) : Decidable (NoBonus w loan) := inferInstanceAs (Decidable (_ ∨ _))

/-- The bonus for early repayment. -/
def prepaymentBonus (w : World) (loan : LoanRecord) : Int :=
  if NoBonus w loan then 0
  else max ((loan.amount * w.prepaymentBonusBps * earlyRatioBps w loan).tdiv (10000 * 10000)) 0

/-- The figures of the bonus fit, if one is worked out. -/
def BonusFits (w : World) (loan : LoanRecord) : Prop :=
  NoBonus w loan ∨ FitsI128 (loan.amount * w.prepaymentBonusBps) ∧
    FitsI128 (loan.amount * w.prepaymentBonusBps * earlyRatioBps w loan)

/-- The bonus goes to the borrower if the contract holds it. -/
def bonusTransfers (w : World) (loan : LoanRecord) (b : Address) (bank : Ledger) : List (Transfer Address Address) :=
  if 0 < prepaymentBonus w loan ∧ prepaymentBonus w loan ≤ bank.balance loan.tokenAddress w.contract then
    [w.payment loan.tokenAddress b (prepaymentBonus w loan)]
  else []

theorem goes_payPrepaymentBonus (loan : LoanRecord) (b : Address) (ctx : Context) (bank : Ledger)
    (Q : Unit → Ledger → Prop) :
    Goes (payPrepaymentBonus loan b) ctx bank Q ↔ BonusFits ctx.toWorld loan ∧
      Q () (bank.moves (bonusTransfers ctx.toWorld loan b bank)) := by
  have hbonus : ∀ R : Int → Ledger → Prop, Goes (applyPrepaymentBonus loan) ctx bank R ↔ BonusFits ctx.toWorld loan ∧
      R (prepaymentBonus ctx.toWorld loan) bank := by
    intro R
    simp only [applyPrepaymentBonus, goes_bind, goes_ask, goes_ite, goes_pure, goes_i128]
    by_cases hnone : NoBonus ctx.toWorld loan
    · have hcode : loan.deadline ≤ ctx.now ∨ ctx.prepaymentBonusBps = 0 ∨
          loan.deadline - loan.disbursementTimestamp = 0 := hnone
      simp [hcode, BonusFits, prepaymentBonus, hnone]
    · have hcode : ¬ (loan.deadline ≤ ctx.now ∨ ctx.prepaymentBonusBps = 0 ∨
          loan.deadline - loan.disbursementTimestamp = 0) := hnone
      simp [hcode, BonusFits, prepaymentBonus, hnone, earlyRatioBps, and_assoc]
  simp only [payPrepaymentBonus, goes_bind, goes_ask, hbonus, goes_look, goes_ite, goes_pay, goes_pure]
  by_cases hpaid : 0 < prepaymentBonus ctx.toWorld loan ∧
      prepaymentBonus ctx.toWorld loan ≤ bank.balance loan.tokenAddress ctx.contract
  · have htransfers : bonusTransfers ctx.toWorld loan b bank =
        [ctx.toWorld.payment loan.tokenAddress b (prepaymentBonus ctx.toWorld loan)] := if_pos hpaid
    rw [htransfers]
    simp [hpaid, hpaid.1.le, Bank.moves, World.payment]
  · have htransfers : bonusTransfers ctx.toWorld loan b bank = [] := if_neg hpaid
    rw [htransfers]
    simp [hpaid]

namespace Vault

/-- The records a loan in `token` is settled with: those the queue leaves in that token. -/
def settledRecords (x : Vault) (token b : Address) : List VouchRecord := inToken token (x.unqueued b)

/-- What the settlement pays the vouchers of a loan. -/
def voucherPayouts (x : Vault) (w : World) (loan : LoanRecord) (b : Address) (dist : List YieldDistributionEntry)
    (penalty : Int) : List (Transfer Address Address) :=
  payouts w loan.tokenAddress dist penalty (stakeSum (x.settledRecords loan.tokenAddress b))
    (x.settledRecords loan.tokenAddress b)

/-- The contract holds what the settlement of the loan pays, the figures fit, and the
borrower's reputation is minted where an NFT contract is set. -/
structure CanSettle (x : Vault) (w : World) (loan : LoanRecord) (b : Address) (dist : List YieldDistributionEntry)
    (penalty : Int) : Prop where
  drains : x.CanDrain w b
  total : SumFits 0 ((x.settledRecords loan.tokenAddress b).map (·.stake))
  figures : ∀ v ∈ x.settledRecords loan.tokenAddress b, PayoutFits w loan.tokenAddress dist penalty
    (stakeSum (x.settledRecords loan.tokenAddress b)) v
  covered : (x.drained w b).bank.Covers (x.voucherPayouts w loan b dist penalty)
  earnings : (x.drained w b).vouching.EarningsFit (earnedOn w loan.tokenAddress dist)
    (x.settledRecords loan.tokenAddress b)
  minted : w.NftReturns .mint b
  bonus : BonusFits w loan

/-- The balances after the queue and the vouchers have been paid. -/
def paidOut (x : Vault) (w : World) (loan : LoanRecord) (b : Address) (dist : List YieldDistributionEntry)
    (penalty : Int) : Ledger :=
  (x.drained w b).bank.moves (x.voucherPayouts w loan b dist penalty)

/-- The vault after the settlement of the loan. -/
def settled (x : Vault) (w : World) (loan : LoanRecord) (b : Address) (dist : List YieldDistributionEntry)
    (penalty : Int) : Vault :=
  { bank := (x.paidOut w loan b dist penalty).moves (bonusTransfers w loan b (x.paidOut w loan b dist penalty))
    vouching := ((x.drained w b).vouching.earnAll (earnedOn w loan.tokenAddress dist)
      (x.settledRecords loan.tokenAddress b)).removeVouches b }

end Vault

theorem goes_settleVouches (loan : LoanRecord) (b : Address) (dist : List YieldDistributionEntry) (penalty : Int)
    (ctx : Context) (x : Vault) (Q : Unit → Vault → Prop) :
    Goes (settleVouches loan b dist penalty) ctx x Q ↔ x.CanSettle ctx.toWorld loan b dist penalty ∧
      Q () (x.settled ctx.toWorld loan b dist penalty) := by
  have hstakes (vouches : List VouchRecord) : 0 + (vouches.map (·.stake)).sum = stakeSum vouches := Int.zero_add _
  simp only [settleVouches, goes_bind, goes_processWithdrawalQueue, goes_look, Vault.drained_vouches, goes_sumI128,
    hstakes, goes_payoutVouchers, goes_ask, goes_require, yields_parts, goes_zoom, goes_payPrepaymentBonus, goes_alter]
  constructor
  · rintro ⟨hdrains, htotal, hfigures, hcovered, hearnings, hminted, hbonus, hq⟩
    exact ⟨⟨hdrains, htotal, hfigures, hcovered, hearnings, hminted, hbonus⟩, hq⟩
  · rintro ⟨⟨hdrains, htotal, hfigures, hcovered, hearnings, hminted, hbonus⟩, hq⟩
    exact ⟨hdrains, htotal, hfigures, hcovered, hearnings, hminted, hbonus, hq⟩

end QuorumCredit
