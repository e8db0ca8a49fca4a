import QuorumCredit.Settling
import QuorumCredit.MovedStakes
import QuorumCredit.WithdrawalQueue
import QuorumCredit.YieldsPaid
/-!
# What the vouches are owed

The stakes recorded in a token and the priority fees queued in it, less what the
contract holds of it. The vouching calls leave this difference as it is or
smaller: what they pay out has come off a record, and shares of a fee or a
penalty add up to no more than was taken. So does the withdrawal queue, as long
as the fees it shares out were taken in the one token it pays. A settlement is
paid out of the stakes that go with it but for the yields and bonuses, and a slash
keeps a share.
-/

open Host Function

namespace QuorumCredit

/-! ## Shares -/

section

variable (w : World) (token : Address)

theorem payment_token (t dst : Address) (amount : Int) : (w.payment t dst amount).token = t := rfl

/-- What rounding each share down leaves of the fees, as a numerator over the total. -/
def shareRest (fees total : Int) (vouches : List VouchRecord) : Int :=
  (vouches.map fun v => fees * v.stake % total).sum

theorem shareRest_nonneg (fees : Int) {total : Int} (htotal : 0 < total) (vouches : List VouchRecord) :
    0 ≤ shareRest fees total vouches := by
  refine List.sum_nonneg fun n hn => ?_
  obtain ⟨v, -, rfl⟩ := List.mem_map.1 hn
  exact Int.emod_nonneg _ htotal.ne'

variable {vouches : List VouchRecord} {queue : List QueuedWithdrawal}

/-- Shares by stake and what rounding leaves of them come to what is shared. -/
theorem outgo_feeShares {fees total : Int} (hfees : 0 ≤ fees) (htotal : 0 < total)
    (hstakes : ∀ v ∈ vouches, 0 ≤ v.stake) :
    total * Bank.outgo (feeShares w token fees total vouches) token + shareRest fees total vouches =
      fees * stakeSum vouches := by
  induction vouches with
  | nil => simp [feeShares, stakeSum, shareRest]
  | cons v vs ih =>
    obtain ⟨hv, hrest⟩ := List.forall_mem_cons.1 hstakes
    have ih := ih hrest
    have hproduct : 0 ≤ fees * v.stake := Int.mul_nonneg hfees hv
    have hquotient : (fees * v.stake).tdiv total = fees * v.stake / total := Int.tdiv_eq_ediv_of_nonneg hproduct
    have hnonneg : 0 ≤ fees * v.stake / total := Int.ediv_nonneg hproduct htotal.le
    have hdivided : total * (fees * v.stake / total) + fees * v.stake % total = fees * v.stake :=
      Int.mul_ediv_add_emod ..
    have hsum : stakeSum (v :: vs) = v.stake + stakeSum vs := List.sum_cons
    have hleft : shareRest fees total (v :: vs) = fees * v.stake % total + shareRest fees total vs := List.sum_cons
    have hshared : Bank.outgo (feeShares w token fees total (v :: vs)) token =
        fees * v.stake / total + Bank.outgo (feeShares w token fees total vs) token := by
      by_cases hpaid : 0 < (fees * v.stake).tdiv total
      · have hcons : feeShares w token fees total (v :: vs) =
            w.payment token v.voucher ((fees * v.stake).tdiv total) :: feeShares w token fees total vs :=
          List.filterMap_cons_some (if_pos hpaid)
        rw [hcons, Bank.outgo_cons, payment_token, if_pos rfl, ← hquotient]
        rfl
      · have hcons : feeShares w token fees total (v :: vs) = feeShares w token fees total vs :=
          List.filterMap_cons_none (if_neg hpaid)
        rw [hcons]
        omega
    rw [hsum, hleft, hshared, Int.mul_add, Int.mul_add, ← ih]
    omega

/-- No share is in another token. -/
theorem outgo_feeShares_other {t : Address} (ht : t ≠ token) (fees total : Int) (vouches : List VouchRecord) :
    Bank.outgo (feeShares w t fees total vouches) token = 0 := by
  refine Bank.outgo_eq_zero fun p hp => ?_
  obtain ⟨v, -, hpaid⟩ := List.mem_filterMap.1 hp
  split at hpaid
  · cases hpaid
    exact ht
  · cases hpaid

theorem feeShares_nonneg (t : Address) (fees total : Int) (vouches : List VouchRecord) :
    ∀ p ∈ feeShares w t fees total vouches, 0 ≤ p.amount := by
  intro p hp
  obtain ⟨v, -, hpaid⟩ := List.mem_filterMap.1 hp
  split at hpaid
  case isTrue hshare =>
    cases hpaid
    exact hshare.le
  case isFalse => cases hpaid

/-- What is shared out is not exceeded. -/
theorem outgo_feeShares_le (t : Address) {fees : Int} (hfees : 0 ≤ fees) (hstakes : ∀ v ∈ vouches, 0 ≤ v.stake)
    (htotal : 0 < stakeSum vouches) :
    Bank.outgo (feeShares w t fees (stakeSum vouches) vouches) token ≤ if t = token then fees else 0 := by
  by_cases ht : t = token
  · subst ht
    have hshares := outgo_feeShares w t hfees htotal hstakes
    have hrest := shareRest_nonneg fees htotal vouches
    rw [if_pos rfl]
    refine Int.le_of_mul_le_mul_left ?_ htotal
    rw [Int.mul_comm _ fees]
    omega
  · rw [if_neg ht, outgo_feeShares_other w token ht]

theorem penaltyShares_nonneg (withdrawing : Address) (penalty : Int) (vouches : List VouchRecord) :
    ∀ p ∈ penaltyShares w token withdrawing penalty vouches, 0 ≤ p.amount := by
  unfold penaltyShares
  dsimp only
  split
  · exact List.forall_mem_nil _
  · exact feeShares_nonneg w token penalty _ _

theorem outgo_penaltyShares_le (t withdrawing : Address) {penalty : Int} (hpenalty : 0 ≤ penalty)
    (hstakes : ∀ v ∈ vouches, 0 ≤ v.stake) :
    Bank.outgo (penaltyShares w t withdrawing penalty vouches) token ≤ if t = token then penalty else 0 := by
  unfold penaltyShares
  dsimp only
  split
  case isTrue =>
    rw [Bank.outgo_nil]
    split
    · exact hpenalty
    · exact le_rfl
  case isFalse hshared =>
    refine outgo_feeShares_le w token t hpenalty ?_ (not_le.1 fun h => hshared (.inr h))
    intro v hv
    exact hstakes v (List.mem_filter.1 hv).1

/-! ## The withdrawal queue -/

/-- The priority fees queued in the token. -/
def feesIn (queue : List QueuedWithdrawal) : Int :=
  (queue.map fun q => if q.token = token then q.priorityFee else 0).sum

/-- The fees are shared out in the token they were collected in: that of the first entry. -/
def FeesMatch (queue : List QueuedWithdrawal) : Prop :=
  ∀ first ∈ queue.head?, ∀ q ∈ queue, 0 < q.priorityFee → q.token = first.token

variable {token} in
theorem feesIn_nonneg (hfees : ∀ q ∈ queue, 0 ≤ q.priorityFee) : 0 ≤ feesIn token queue := by
  refine List.sum_nonneg fun n hn => ?_
  obtain ⟨q, hq, rfl⟩ := List.mem_map.1 hn
  split
  · exact hfees q hq
  · exact le_rfl

theorem feesIn_insertEntry (entry : QueuedWithdrawal) (queue : List QueuedWithdrawal) :
    feesIn token (insertEntry entry queue) = feesIn token queue +
      if entry.token = token then entry.priorityFee else 0 := by
  have hcons (q : QueuedWithdrawal) (queue : List QueuedWithdrawal) :
      feesIn token (q :: queue) = (if q.token = token then q.priorityFee else 0) + feesIn token queue := List.sum_cons
  induction queue with
  | nil =>
    rw [insertEntry, hcons]
    omega
  | cons q queue ih =>
    rw [insertEntry]
    split
    · rw [hcons, hcons]
      omega
    · rw [hcons, hcons, ih]
      omega

theorem queuedFees_eq (hfees : ∀ q ∈ queue, 0 ≤ q.priorityFee)
    (hmatch : ∀ q ∈ queue, 0 < q.priorityFee → q.token = token) : queuedFees queue = feesIn token queue := by
  refine congrArg List.sum (List.map_congr_left fun q hq => ?_)
  split
  · rfl
  case isFalse hother =>
    have hfee := hfees q hq
    by_contra hne
    exact hother (hmatch q hq (by omega))

theorem outgo_feePayments_le (hfees : ∀ q ∈ queue, 0 ≤ q.priorityFee) (hmatch : FeesMatch queue)
    (hstakes : ∀ v ∈ vouches, 0 ≤ v.stake) : Bank.outgo (feePayments w queue vouches) token ≤ feesIn token queue := by
  have hnonneg : 0 ≤ feesIn token queue := feesIn_nonneg hfees
  unfold feePayments feeToken
  cases queue with
  | nil => exact hnonneg
  | cons first rest =>
    dsimp only
    by_cases hpays : 0 < queuedFees (first :: rest) ∧ 0 < stakeSum vouches ∧ w.Allows first.token
    · rw [if_pos hpays]
      dsimp only
      refine (outgo_feeShares_le w token first.token hpays.1.le hstakes hpays.2.1).trans ?_
      split
      case isTrue hfirst =>
        subst hfirst
        exact (queuedFees_eq first.token hfees (hmatch first rfl)).le
      case isFalse => exact hnonneg
    · rw [if_neg hpays]
      exact hnonneg

theorem feePayments_nonneg (queue : List QueuedWithdrawal) (vouches : List VouchRecord) :
    ∀ p ∈ feePayments w queue vouches, 0 ≤ p.amount := by
  unfold feePayments
  split
  · exact feeShares_nonneg w _ _ _ _
  · exact List.forall_mem_nil _

/-- The records the queue takes out are paid at their stake, or left unpaid. -/
theorem outgo_queuePayments (vouches : List VouchRecord) (queue : List QueuedWithdrawal) :
    Bank.outgo (queuePayments w vouches queue) token + plainStake token (unpaidRecords w vouches queue) +
      plainStake token (unqueued vouches queue) = plainStake token vouches := by
  induction queue generalizing vouches with
  | nil => exact Int.zero_add _
  | cons queued queue ih =>
    rw [queuePayments, unqueued, unpaidRecords, Bank.outgo_append, plainStake_append]
    have ih := ih (removeVouch queued.voucher vouches)
    cases hfind : findVouch queued.voucher vouches with
    | none =>
      rw [removeVouch_of_none hfind] at ih ⊢
      rw [Bank.outgo_nil, Option.toList_none, List.filter_nil, plainStake_nil]
      omega
    | some v =>
      have htaken := plainStake_removeVouch token hfind
      by_cases hallowed : w.Allows v.token
      · have hpaid : Bank.outgo [w.payment v.token v.voucher v.stake] token = v.stakeIn token := by
          rw [Bank.outgo_cons, Bank.outgo_nil, Int.add_zero]
          rfl
        simp only [hallowed, if_true, hpaid, Option.toList_some, List.filter_singleton, not_true, decide_false,
          Bool.cond_false, plainStake_nil]
        omega
      · simp only [hallowed, if_false, Option.toList_some, List.filter_singleton, not_false_iff, decide_true,
          Bool.cond_true, plainStake_singleton, Bank.outgo_nil]
        omega

/-- The queue pays records that it takes out, at their stake. -/
theorem queuePayments_stake :
    (∀ p ∈ queuePayments w vouches queue, ∃ v ∈ vouches, p = w.payment v.token v.voucher v.stake) ∧
      ∀ v ∈ unpaidRecords w vouches queue, v ∈ vouches := by
  induction queue generalizing vouches with
  | nil => exact ⟨List.forall_mem_nil _, List.forall_mem_nil _⟩
  | cons queued queue ih =>
    obtain ⟨hpaid, hunpaid⟩ := @ih (removeVouch queued.voucher vouches)
    refine ⟨fun p hp => ?_, fun v hv => ?_⟩
    · rcases List.mem_append.1 hp with hp | hp
      · cases hfind : findVouch queued.voucher vouches with
        | none =>
          rw [hfind] at hp
          cases hp
        | some v =>
          rw [hfind] at hp
          dsimp only at hp
          split at hp
          · exact ⟨v, (findVouch_some hfind).1, List.mem_singleton.1 hp⟩
          · cases hp
      · obtain ⟨v, hv, rfl⟩ := hpaid p hp
        exact ⟨v, mem_removeVouch hv, rfl⟩
    · rcases List.mem_append.1 hv with hv | hv
      · have hfound := (List.mem_filter.1 hv).1
        exact (findVouch_some (Option.mem_toList.1 hfound)).1
      · exact mem_removeVouch (hunpaid v hv)

theorem outgo_queuePayments_le (hstakes : ∀ v ∈ vouches, 0 ≤ v.stake) (queue : List QueuedWithdrawal) :
    (∀ p ∈ queuePayments w vouches queue, 0 ≤ p.amount) ∧
      Bank.outgo (queuePayments w vouches queue) token + plainStake token (unqueued vouches queue) ≤
        plainStake token vouches := by
  obtain ⟨hpaid, hunpaid⟩ := @queuePayments_stake w vouches queue
  refine ⟨fun p hp => ?_, ?_⟩
  · obtain ⟨v, hv, rfl⟩ := hpaid p hp
    exact hstakes v hv
  · have hall := outgo_queuePayments w token vouches queue
    have hkept := plainStake_nonneg token fun v hv => hstakes v (hunpaid v hv)
    omega

/-! ## Slashes and settlements -/

/-- What a slash at rate `bps` leaves of each stake, paid back in `t`. -/
def remaindersAt (t : Address) (bps : Int) (vouches : List VouchRecord) : List (Transfer Address Address) :=
  vouches.filterMap fun v =>
    if 0 < v.stake - (v.stake * bps).tdiv bpsDenominator
    then some (w.payment t v.voucher (v.stake - (v.stake * bps).tdiv bpsDenominator)) else none

/-- What a slash at rate `bps` keeps of the stakes in the token. -/
def keptStake (bps : Int) (vouches : List VouchRecord) : Int :=
  ((inToken token vouches).map fun v => v.stake - max 0 (v.stake - (v.stake * bps).tdiv bpsDenominator)).sum

theorem remaindersAt_nonneg (t : Address) (bps : Int) (vouches : List VouchRecord) :
    ∀ p ∈ remaindersAt w t bps vouches, 0 ≤ p.amount := by
  intro p hp
  obtain ⟨v, -, hpaid⟩ := List.mem_filterMap.1 hp
  split at hpaid
  case isTrue hpos =>
    cases hpaid
    exact hpos.le
  case isFalse => cases hpaid

/-- Where all stakes are in the token they are paid back in, the rest is kept. -/
theorem outgo_remaindersAt (t : Address) (bps : Int) (htokens : ∀ v ∈ vouches, v.token = t) :
    Bank.outgo (remaindersAt w t bps vouches) token + keptStake token bps vouches = plainStake token vouches := by
  induction vouches with
  | nil => rfl
  | cons v vs ih =>
    obtain ⟨hv, hrest⟩ := List.forall_mem_cons.1 htokens
    have ih := ih hrest
    have hkept : keptStake token bps (v :: vs) =
        (if v.token = token then v.stake - max 0 (v.stake - (v.stake * bps).tdiv bpsDenominator) else 0) +
          keptStake token bps vs := by
      unfold keptStake inToken
      by_cases htoken : v.token = token
      · simp [htoken]
      · simp [htoken]
    have hpaid : Bank.outgo (remaindersAt w t bps (v :: vs)) token =
        (if v.token = token then max 0 (v.stake - (v.stake * bps).tdiv bpsDenominator) else 0) +
          Bank.outgo (remaindersAt w t bps vs) token := by
      by_cases hpos : 0 < v.stake - (v.stake * bps).tdiv bpsDenominator
      · have hcons : remaindersAt w t bps (v :: vs) =
            w.payment t v.voucher (v.stake - (v.stake * bps).tdiv bpsDenominator) :: remaindersAt w t bps vs :=
          List.filterMap_cons_some (if_pos hpos)
        rw [hcons, Bank.outgo_cons, payment_token, hv, max_eq_right hpos.le]
        rfl
      · have hcons : remaindersAt w t bps (v :: vs) = remaindersAt w t bps vs := List.filterMap_cons_none (if_neg hpos)
        rw [hcons, max_eq_left (not_lt.1 hpos), ite_self, Int.zero_add]
    rw [hkept, hpaid, plainStake_cons, VouchRecord.stakeIn]
    by_cases htoken : v.token = token
    · simp only [htoken, if_true]
      omega
    · simp only [htoken, if_false]
      omega

theorem seizures_eq {t : Address} (bps : Int) (htokens : ∀ v ∈ vouches, v.token = t) :
    seizures w t bps vouches = remaindersAt w t bps vouches := by
  refine List.filterMap_congr fun v hv => ?_
  rw [if_pos (htokens v hv), htokens v hv]

theorem outgo_stakes {t : Address} (htokens : ∀ v ∈ vouches, v.token = t) :
    Bank.outgo (vouches.map fun v => w.payment t v.voucher v.stake) token = plainStake token vouches := by
  induction vouches with
  | nil => rfl
  | cons v vs ih =>
    obtain ⟨hv, hrest⟩ := List.forall_mem_cons.1 htokens
    rw [List.map_cons, Bank.outgo_cons, payment_token, ih hrest, plainStake_cons, VouchRecord.stakeIn, hv]
    rfl

theorem duePayouts_spec (t : Address) (dist : List YieldDistributionEntry) (settled : List VouchRecord) :
    ∀ p ∈ duePayouts w t dist settled, p.token = t ∧ 0 ≤ p.amount := by
  intro p hp
  obtain ⟨v, -, hpaid⟩ := List.mem_filterMap.1 hp
  split at hpaid
  case isTrue hpos =>
    cases hpaid
    exact ⟨rfl, hpos.le⟩
  case isFalse => cases hpaid

theorem bonusTransfers_spec (loan : LoanRecord) (b : Address) (bank : Ledger) :
    ∀ p ∈ bonusTransfers w loan b bank, p.token = loan.tokenAddress ∧ 0 ≤ p.amount := by
  unfold bonusTransfers
  split
  case isTrue hpaid => exact List.forall_mem_singleton.2 ⟨rfl, hpaid.1.le⟩
  case isFalse => exact List.forall_mem_nil _

end

/-! ## What is owed -/

/-- The queues of the borrowers: finitely many are not empty, and no fee is negative. -/
structure FeeQueues (queues : Address → List QueuedWithdrawal) : Prop where
  finite : {b | queues b ≠ []}.Finite
  fees : ∀ b, ∀ q ∈ queues b, 0 ≤ q.priorityFee

namespace FeeQueues

variable {queues : Address → List QueuedWithdrawal}

theorem support (h : FeeQueues queues) (token : Address) :
    (Function.support fun b => feesIn token (queues b)).Finite := by
  refine h.finite.subset fun b hb hnil => hb ?_
  simp only [hnil]
  rfl

theorem update (h : FeeQueues queues) (b : Address) {queue : List QueuedWithdrawal}
    (hfees : ∀ q ∈ queue, 0 ≤ q.priorityFee) : FeeQueues (Function.update queues b queue) := by
  refine ⟨(h.finite.insert b).subset fun a ha => ?_, fun a => ?_⟩
  · by_cases hab : a = b
    · exact .inl hab
    · rw [Set.mem_ofPred_eq, update_of_ne hab] at ha
      exact .inr ha
  · by_cases hab : a = b
    · subst hab
      rw [update_self]
      exact hfees
    · rw [update_of_ne hab]
      exact h.fees a

end FeeQueues

def Vault.queues (x : Vault) : Address → List QueuedWithdrawal := x.vouching.withdrawalQueue

/-- The priority fees queued in the token behind all borrowers. -/
noncomputable def pendingFees (token : Address) (queues : Address → List QueuedWithdrawal) : Int :=
  ∑ᶠ b, feesIn token (queues b)

/-- What the vouches are owed in the token beyond what account `c` holds: stakes and queued fees. -/
noncomputable def Vault.owed (x : Vault) (c token : Address) : Int :=
  totalStaked token x.records + pendingFees token x.queues - x.bank.balance token c

/-- What holds of the vouches in every state: well-formed records behind finitely many borrowers, and the queues. -/
structure Vault.InOrder (x : Vault) : Prop where
  records : Sparse x.records
  wellFormed : ∀ b, WellFormed (x.records b)
  queues : FeeQueues x.queues

theorem Vault.InOrder.staked {x : Vault} (hx : x.InOrder) (b : Address) : ∀ v ∈ x.records b, 0 ≤ v.stake :=
  fun v hv => ((hx.wellFormed b).staked v hv).le

section

variable {x y : Vault} {c token b : Address}

/-- One list of records and one queue change, and the balance with them. -/
theorem Vault.owed_update (hx : x.InOrder) {vouches : List VouchRecord} {queue : List QueuedWithdrawal}
    (hrecords : y.records = update x.records b vouches) (hqueues : y.queues = update x.queues b queue) :
    y.owed c token = x.owed c token + (plainStake token vouches - plainStake token (x.records b)) +
      (feesIn token queue - feesIn token (x.queues b)) - (y.bank.balance token c - x.bank.balance token c) := by
  have hfees : pendingFees token y.queues =
      pendingFees token x.queues + feesIn token queue - feesIn token (x.queues b) := by
    rw [pendingFees, hqueues]
    exact finsum_update_entry (hx.queues.support token) b queue
  rw [owed, hfees, hrecords, totalStaked_update hx.records, owed]
  omega

/-- The same where the queues stay as they are. -/
theorem Vault.owed_rewrite (hx : x.InOrder) {vouches : List VouchRecord}
    (hrecords : y.records = update x.records b vouches) (hqueues : y.queues = x.queues) :
    y.owed c token = x.owed c token + (plainStake token vouches - plainStake token (x.records b)) -
      (y.bank.balance token c - x.bank.balance token c) := by
  have hqueue : y.queues = update x.queues b (x.queues b) := by rw [hqueues, update_eq_self]
  rw [owed_update hx hrecords hqueue]
  omega

/-- Records stored behind `b`. -/
theorem Vault.owed_set (hx : x.InOrder) {vouches : List VouchRecord}
    (hy : y.vouching = x.vouching.setVouches b vouches) :
    y.owed c token = x.owed c token + (plainStake token vouches - plainStake token (x.records b)) -
      (y.bank.balance token c - x.bank.balance token c) := by
  apply owed_rewrite hx
  · rw [Vault.records, hy]
    exact Vouching.setVouches_records ..
  · rw [Vault.queues, hy]
    rfl

/-- Records saved. -/
theorem Vault.owed_saved (hx : x.InOrder) {u t : Address} {vouches : List VouchRecord}
    (hy : y.vouching = x.vouching.saved u b t vouches) :
    y.owed c token = x.owed c token + (plainStake token vouches - plainStake token (x.records b)) -
      (y.bank.balance token c - x.bank.balance token c) := by
  apply owed_rewrite hx
  · rw [Vault.records, hy]
    exact Vouching.saved_vouchesOf ..
  · rw [Vault.queues, hy]
    rfl

/-- Records saved, and a withdrawal queued behind them. -/
theorem Vault.owed_savedLater (hx : x.InOrder) {u t : Address} {vouches : List VouchRecord} {entry : QueuedWithdrawal}
    (hy : y.vouching = (x.vouching.saved u b t vouches).queued b entry) :
    y.owed c token = x.owed c token + (plainStake token vouches - plainStake token (x.records b)) +
      (feesIn token (insertEntry entry (x.queues b)) - feesIn token (x.queues b)) -
      (y.bank.balance token c - x.bank.balance token c) := by
  apply owed_update hx
  · rw [Vault.records, hy]
    exact Vouching.saved_vouchesOf x.vouching u b t vouches
  · rw [Vault.queues, hy]
    rfl

/-- A withdrawal queued. -/
theorem Vault.owed_queued (hx : x.InOrder) {entry : QueuedWithdrawal} (hy : y.vouching = x.vouching.queued b entry) :
    y.owed c token = x.owed c token + (feesIn token (insertEntry entry (x.queues b)) - feesIn token (x.queues b)) -
      (y.bank.balance token c - x.bank.balance token c) := by
  have hrecords : y.records = update x.records b (x.records b) := by
    rw [Vault.records, hy, update_eq_self]
    rfl
  have hqueues : y.queues = update x.queues b (insertEntry entry (x.queues b)) := by
    rw [Vault.queues, hy]
    rfl
  rw [owed_update hx hrecords hqueues]
  omega

/-- Nothing but the balance changes. -/
theorem Vault.owed_kept (hrecords : y.records = x.records) (hqueues : y.queues = x.queues) :
    y.owed c token = x.owed c token - (y.bank.balance token c - x.bank.balance token c) := by
  rw [owed, hrecords, hqueues, owed]
  omega

/-- The same stakes in sum. -/
theorem Vault.owed_moved (hstakes : totalStaked token y.records = totalStaked token x.records)
    (hqueues : y.queues = x.queues) (hbank : y.bank = x.bank) : y.owed c token = x.owed c token := by
  rw [owed, hstakes, hqueues, hbank, owed]

end

/-! ## The vouching calls -/

section

variable {w : World} {k : LoanBook} {x y : Vault} {op : Op} (token : Address)

theorem plainStake_reduceStake {u : Address} {vouches : List VouchRecord} {v : VouchRecord}
    (hfind : findVouch u vouches = some v) (amount : Int) :
    plainStake token (reduceStake v amount vouches) = plainStake token vouches -
      if v.token = token then amount else 0 := by
  obtain ⟨-, rfl⟩ := findVouch_some hfind
  unfold reduceStake
  split
  case isTrue hall =>
    have htaken := plainStake_removeVouch token hfind
    rw [hall]
    unfold VouchRecord.stakeIn at htaken
    omega
  case isFalse =>
    have htaken := plainStake_setStake token hfind (v.stake - amount)
    simp only [VouchRecord.stakeIn] at htaken
    split
    case isTrue htoken =>
      simp only [htoken, if_true] at htaken
      omega
    case isFalse htoken =>
      simp only [htoken, if_false] at htaken
      omega

theorem Committed.owed (h : Committed w k x y) (hx : x.InOrder) :
    y.owed w.contract token = x.owed w.contract token := by
  induction h with
  | nil => rfl
  | @cons x b record y hadmits hvoucher _ ih =>
    let z : Vault :=
      { vouching := x.vouching.committed w.now b record
        bank := x.bank.move record.token record.voucher w.contract record.stake }
    have hrecords : z.records = update x.records b (x.records b ++ [record]) := Vouching.committed_vouchesOf ..
    have hz : z.InOrder := by
      refine ⟨hrecords ▸ hx.records.update b _, fun a => ?_, hx.queues⟩
      rw [hrecords]
      exact forall_update hx.wellFormed ((hx.wellFormed b).append hadmits.staked hadmits.unique) a
    have hadded : z.owed w.contract token = x.owed w.contract token := by
      rw [Vault.owed_rewrite hx hrecords rfl, Bank.balance_paid_in _ _ _ hvoucher, plainStake_append,
        plainStake_singleton]
      unfold VouchRecord.stakeIn
      omega
    exact (ih hz).trans hadded

theorem Committed.queues (h : Committed w k x y) : y.queues = x.queues := by
  induction h with
  | nil => rfl
  | cons _ _ _ ih => exact ih

/-- A vouching call leaves the queues alone, or queues one entry more. -/
theorem Staked.queued (h : Staked w k x y op) : y.queues = x.queues ∨
    ∃ b entry, 0 ≤ entry.priorityFee ∧ x.vouching.Queueable w entry.voucher b ∧ entry.requestedAt = w.now ∧
      y.queues = update x.queues b (insertEntry entry (x.queues b)) := by
  unfold Vault.queues
  cases h with
  | vouched hc | batched hc => exact .inl hc.queues
  | increased _ _ _ _ hy | decreased _ _ _ _ _ hy | withdrawn _ _ _ hy | requested _ _ _ hy | halved _ _ _ _ hy =>
    rw [hy]
    exact .inl rfl
  | decreasedLater _ _ _ _ hy _ hroom | withdrawnLater _ _ hy _ hroom | halvedLater _ _ hy _ hroom =>
    rw [hy]
    exact .inr ⟨_, _, le_rfl, hroom, rfl, rfl⟩
  | requestedLater _ _ hfee _ hy _ hroom =>
    rw [hy]
    exact .inr ⟨_, _, hfee, hroom, rfl, rfl⟩
  | transferred _ _ _ _ hy =>
    rw [hy]
    exact .inl (Vouching.releaseHistory_frame (·.withdrawalQueue) (fun _ _ => rfl) ..)
  | split _ _ _ _ _ _ hy =>
    rw [hy]
    exact .inl (Vouching.noteHistory_frame (·.withdrawalQueue) (fun _ _ => rfl) ..)
  | rotated _ _ _ _ hy =>
    have hnoted := Vouching.noteHistory_frame (·.withdrawalQueue) (fun _ _ => rfl)
    have hreleased := Vouching.releaseHistory_frame (·.withdrawalQueue) (fun _ _ => rfl)
    rw [hy]
    exact .inl ((hnoted ..).trans (hreleased ..))

/-- A vouching call leaves the queues in order. -/
theorem Staked.queues (h : Staked w k x y op) (hx : FeeQueues x.queues) : FeeQueues y.queues := by
  rcases h.queued with hkept | ⟨b, entry, hfee, -, -, hqueued⟩
  · rw [hkept]
    exact hx
  · rw [hqueued]
    refine hx.update b fun q hq => ?_
    rcases mem_insertEntry.1 hq with rfl | hq
    · exact hfee
    · exact hx.fees b q hq

/-- The share of a stake a partial withdrawal takes out, and the penalty on it. -/
theorem withdrawable_bounds {stake : Int} (hstake : 0 < stake) (hpos : 0 < withdrawable stake) :
    withdrawable stake < stake ∧ 0 ≤ withdrawalPenalty (withdrawable stake) ∧
      withdrawalPenalty (withdrawable stake) ≤ withdrawable stake := by
  generalize hhalf : withdrawable stake = half at hpos ⊢
  have hhalf : half = stake * 5000 / 10000 := by
    rw [← hhalf]
    exact Int.tdiv_eq_ediv_of_nonneg (Int.mul_nonneg hstake.le (by decide))
  have hpenalty : withdrawalPenalty half = half * 1000 / 10000 :=
    Int.tdiv_eq_ediv_of_nonneg (Int.mul_nonneg hpos.le (by decide))
  rw [hpenalty]
  omega

/-- A vouching call pays out what has come off a record. -/
theorem Staked.owed (h : Staked w k x y op) (hx : x.InOrder)
    (hmoved : op.handsOn = true → totalStaked token y.records = totalStaked token x.records) :
    y.owed w.contract token ≤ x.owed w.contract token := by
  cases h with
  | vouched hc | batched hc => exact (hc.owed token hx).le
  | @increased u b n v hfind hcontract _ _ hy hbank =>
    have hstakes := plainStake_setStake token hfind (v.stake + n)
    simp only [VouchRecord.stakeIn] at hstakes
    rw [Vault.owed_saved hx hy, hbank, Bank.balance_paid_in _ _ _ hcontract]
    by_cases htoken : v.token = token
    · simp only [htoken, if_true] at hstakes ⊢
      omega
    · simp only [htoken, if_false] at hstakes ⊢
      omega
  | @decreased u b n v hfind hcontract _ _ _ hy hbank =>
    rw [Vault.owed_saved hx hy, hbank, Bank.balance_paid_out _ _ _ hcontract,
      plainStake_reduceStake token hfind]
    omega
  | @decreasedLater u b n v hfind hpos _ _ hy hbank =>
    rw [Vault.owed_savedLater hx hy, hbank, plainStake_reduceStake token hfind, feesIn_insertEntry]
    simp only [ite_self]
    split
    · omega
    · omega
  | @withdrawn u b v hfind hcontract _ hy hbank =>
    have hstakes := plainStake_removeVouch token hfind
    rw [Vault.owed_saved hx hy, hbank, Bank.balance_paid_out _ _ _ hcontract, ← hstakes]
    unfold VouchRecord.stakeIn
    omega
  | @withdrawnLater u b v hfind _ hy hbank =>
    have hstakes := plainStake_removeVouch token hfind
    have hpos := (hx.wellFormed b).staked v (findVouch_some hfind).1
    rw [Vault.owed_savedLater hx hy, hbank, feesIn_insertEntry, ← hstakes]
    simp only [ite_self, VouchRecord.stakeIn]
    split
    · omega
    · omega
  | @requested u b fee v hfind hcontract _ hy hbank =>
    have hstakes := plainStake_removeVouch token hfind
    rw [Vault.owed_set hx hy, hbank, Bank.balance_paid_out _ _ _ hcontract, ← hstakes]
    unfold VouchRecord.stakeIn
    omega
  | @requestedLater u b fee v _ hcontract hfee _ hy hbank =>
    have hpaid : y.bank.balance token w.contract =
        x.bank.balance token w.contract + if v.token = token then fee else 0 := by
      rw [hbank]
      split
      case isTrue => exact Bank.balance_paid_in _ _ _ hcontract _
      case isFalse hnone =>
        have hzero : fee = 0 := by omega
        rw [hzero, ite_self, Int.add_zero]
    rw [Vault.owed_queued hx hy, hpaid, feesIn_insertEntry]
    dsimp only
    omega
  | @halved u b v hfind hcontract _ hpos hy hbank =>
    have hstake := (hx.wellFormed b).staked v (findVouch_some hfind).1
    obtain ⟨hless, hpenalty, hle⟩ := withdrawable_bounds hstake hpos
    obtain ⟨rest, hset⟩ : ∃ rest, setStake u (v.stake - withdrawable v.stake) (x.records b) = rest := ⟨_, rfl⟩
    have hstakes := plainStake_setStake token hfind (v.stake - withdrawable v.stake)
    have hkept := (hx.wellFormed b).setStake (by omega : 0 < v.stake - withdrawable v.stake) u
    rw [hset] at hy hbank hstakes hkept
    simp only [VouchRecord.stakeIn] at hstakes
    have hshares := outgo_penaltyShares_le w token v.token u hpenalty fun r hr => (hkept.staked r hr).le
    have hbalance := Bank.le_balance_moves
      (x.bank.move v.token w.contract u (withdrawable v.stake - withdrawalPenalty (withdrawable v.stake)))
      (penaltyShares_nonneg w v.token u (withdrawalPenalty (withdrawable v.stake)) rest) token w.contract
    rw [Bank.balance_paid_out _ _ _ hcontract] at hbalance
    rw [Vault.owed_set hx hy, hbank]
    by_cases htoken : v.token = token
    · simp only [htoken, if_true] at hstakes hshares hbalance ⊢
      omega
    · simp only [htoken, if_false] at hstakes hshares hbalance ⊢
      omega
  | @halvedLater u b v _ _ hy hbank =>
    rw [Vault.owed_queued hx hy, hbank, feesIn_insertEntry]
    simp only [ite_self]
    omega
  | transferred _ _ _ _ hy hbank =>
    refine (Vault.owed_moved (hmoved rfl) ?_ hbank).le
    rw [Vault.queues, hy]
    exact Vouching.releaseHistory_frame (·.withdrawalQueue) (fun _ _ => rfl) ..
  | split _ _ _ _ _ _ hy hbank =>
    refine (Vault.owed_moved (hmoved rfl) ?_ hbank).le
    rw [Vault.queues, hy]
    exact Vouching.noteHistory_frame (·.withdrawalQueue) (fun _ _ => rfl) ..
  | rotated _ _ _ _ hy hbank =>
    refine (Vault.owed_moved (hmoved rfl) ?_ hbank).le
    rw [Vault.queues, hy]
    refine (Vouching.noteHistory_frame (·.withdrawalQueue) (fun _ _ => rfl) ..).trans ?_
    exact Vouching.releaseHistory_frame (·.withdrawalQueue) (fun _ _ => rfl) ..

end

end QuorumCredit
