import QuorumCredit.Collateral
import QuorumCredit.Host.Batch
/-!
# What the vouching calls leave behind

The calls of `vouch.rs` that work on single records: staking, changing and
withdrawing a stake, and handing a record on. `Staked` says of each what it has
checked and the whole vault it leaves: the records, the history, the caches, the
queue and the money. The theorems about records, indexes, caches and balances
are case analyses over it.
-/

open Host Function

namespace QuorumCredit

/-! ## Records -/

/-- The records behind each borrower. -/
abbrev Records := Address → List VouchRecord

def Vault.records (x : Vault) : Records := x.vouching.vouchesOf

def Store.records (s : Store) : Records := s.vault.records

theorem findVouch_some {voucher : Address} {vouches : List VouchRecord} {v : VouchRecord}
    (h : findVouch voucher vouches = some v) : v ∈ vouches ∧ v.voucher = voucher := by
  have hv := List.find?_some h
  exact ⟨List.mem_of_find?_eq_some h, of_decide_eq_true hv⟩

/-! ## What is stored -/

namespace Vouching

/-- The changed records, without what was cached from the old ones. -/
def saved (x : Vouching) (voucher borrower token : Address) (vouches : List VouchRecord) : Vouching :=
  ((x.setVouches borrower vouches).invalidateWeightedStakeCache borrower token).invalidateYieldCache borrower voucher

def queued (x : Vouching) (borrower : Address) (entry : QueuedWithdrawal) : Vouching :=
  x.setQueue borrower (insertEntry entry (x.withdrawalQueue borrower))

/-- A new record behind the borrower. -/
def committed (x : Vouching) (now : Nat) (borrower : Address) (record : VouchRecord) : Vouching :=
  { (x.setVouches borrower (x.vouchesOf borrower ++ [record])).invalidateWeightedStakeCache borrower record.token with
    voucherHistory := update x.voucherHistory record.voucher (x.voucherHistory record.voucher ++ [borrower])
    voucherRegistry :=
      if record.voucher ∈ x.voucherRegistry then x.voucherRegistry else x.voucherRegistry ++ [record.voucher]
    lastVouchTimestamp := update x.lastVouchTimestamp record.voucher now }

/-- The records with the voucher's first one in another name. -/
def transferred (x : Vouching) (src dst borrower token : Address) : Vouching :=
  let vouches := setVoucher src dst (x.vouchesOf borrower)
  (((x.setVouches borrower vouches).invalidateWeightedStakeCache borrower token).releaseHistory src borrower
    vouches).pushHistory dst borrower

/-- The records with `amount` of `v` in a record of its own. -/
def split (x : Vouching) (now : Nat) (borrower newVoucher : Address) (amount : Int) (v : VouchRecord) : Vouching :=
  let record := { v with voucher := newVoucher, stake := amount, vouchTimestamp := now, delegate := none }
  let vouches := setStake v.voucher (v.stake - amount) (x.vouchesOf borrower) ++ [record]
  { ((x.setVouches borrower vouches).invalidateWeightedStakeCache borrower v.token).noteHistory newVoucher borrower with
    vouchSplitHistory :=
      update x.vouchSplitHistory borrower
        (x.vouchSplitHistory borrower ++ [⟨v.voucher, newVoucher, borrower, amount, now⟩]) }

/-- The record of the voucher behind another borrower. -/
def moved (x : Vouching) (now : Nat) (old new : Address) (v : VouchRecord) : Vouching :=
  let rest := removeVouch v.voucher (x.vouchesOf old)
  let stored := ((x.setVouches old rest).invalidateWeightedStakeCache old v.token).setVouches new
    (x.vouchesOf new ++ [{ v with vouchTimestamp := now }])
  let indexed := ((stored.invalidateWeightedStakeCache new v.token).releaseHistory v.voucher old rest).noteHistory
    v.voucher new
  { indexed with
    rotationBonusBps := update indexed.rotationBonusBps v.voucher
      (rotationBonus now (x.lastRotationTimestamp v.voucher))
    lastRotationTimestamp := update indexed.lastRotationTimestamp v.voucher (some now)
    rotationCount := update indexed.rotationCount v.voucher (indexed.rotationCount v.voucher + 1) }

end Vouching

/-! ## What is paid -/

/-- Transfers go through for the main token and the allowed ones. -/
def World.Allows (w : World) (token : Address) : Prop := token = w.config.token ∨ token ∈ w.config.allowedTokens

instance (w : World) (token : Address) : Decidable (w.Allows token) := inferInstanceAs (Decidable (_ ∨ _))

/-- A transfer out of the contract. -/
def World.payment (w : World) (token dst : Address) (amount : Int) : Transfer Address Address :=
  ⟨token, w.contract, dst, amount⟩

/-- The priority fees, shared out by stake. -/
def feeShares (w : World) (token : Address) (fees total : Int) (vouches : List VouchRecord) :
    List (Transfer Address Address) :=
  vouches.filterMap fun v =>
    if 0 < (fees * v.stake).tdiv total then some (w.payment token v.voucher ((fees * v.stake).tdiv total)) else none

/-- What a partial withdrawal takes out of a stake. -/
def withdrawable (stake : Int) : Int := (stake * partialWithdrawalMaxBps).tdiv bpsDenominator

/-- What of it is kept for the other vouchers. -/
def withdrawalPenalty (amount : Int) : Int := (amount * partialWithdrawalPenaltyBps).tdiv bpsDenominator

/-- The penalty, shared out among the others. -/
def penaltyShares (w : World) (token withdrawing : Address) (penalty : Int) (vouches : List VouchRecord) :
    List (Transfer Address Address) :=
  let remaining := vouches.filter fun v => v.voucher ≠ withdrawing
  let total := (remaining.map (·.stake)).sum
  if penalty ≤ 0 ∨ total ≤ 0 then [] else feeShares w token penalty total remaining

/-! ## The effect -/

/-- What a new record behind `b` has passed: it has a stake, is not the
borrower's own and not a duplicate, the borrower is neither barred nor in debt,
and there is room for it. -/
structure Admits (w : World) (k : LoanBook) (xs : Records) (b : Address) (record : VouchRecord) : Prop where
  staked : 0 < record.stake
  other : record.voucher ≠ b
  unique : ∀ u ∈ xs b, ¬ (u.voucher = record.voucher ∧ u.token = record.token)
  admitted : w.blacklisted b = false
  room : (xs b).length < w.vouchConfig.maxVouchersPerBorrower
  idle : k.hasActiveLoan b = false

/-- Records added one after the other, each with what it has passed and paid for. -/
inductive Committed (w : World) (k : LoanBook) : Vault → Vault → Prop
  | nil {x} : Committed w k x x
  | cons {x b record y} : Admits w k x.records b record → record.voucher ≠ w.contract →
      Committed w k
        { vouching := x.vouching.committed w.now b record
          bank := x.bank.move record.token record.voucher w.contract record.stake } y → Committed w k x y

/-- The borrower's queue has no entry of the voucher, and room for one. -/
def Vouching.Queueable (x : Vouching) (w : World) (u b : Address) : Prop :=
  (∀ q ∈ x.withdrawalQueue b, q.voucher ≠ u) ∧ (x.withdrawalQueue b).length < w.maxWithdrawalQueueSize

/-- The vault after a vouching call that has gone through, with what the call
has found: the record it works on, and whether the borrower has an active loan. -/
inductive Staked (w : World) (k : LoanBook) (x y : Vault) : Op → Prop
  | vouched {u b n token chain} : Committed w k x y → Staked w k x y (.vouch u b n token chain)
  | batched {u bs ns token chain} : Committed w k x y → Staked w k x y (.batchVouch u bs ns token chain)
  | increased {u b n v} : findVouch u (x.records b) = some v → u ≠ w.contract → 0 < n → k.hasActiveLoan b = false →
      y.vouching = x.vouching.saved u b v.token (setStake u (v.stake + n) (x.records b)) →
      y.bank = x.bank.move v.token u w.contract n → Staked w k x y (.increaseStake u b n)
  | decreased {u b n v} : findVouch u (x.records b) = some v → u ≠ w.contract → 0 < n → n ≤ v.stake →
      k.hasActiveLoan b = false →
      y.vouching = x.vouching.saved u b v.token (reduceStake v n (x.records b)) →
      y.bank = x.bank.move v.token w.contract u n → Staked w k x y (.decreaseStake u b n)
  | decreasedLater {u b n v} : findVouch u (x.records b) = some v → 0 < n → n ≤ v.stake → k.hasActiveLoan b = true →
      y.vouching =
        (x.vouching.saved u b v.token (reduceStake v n (x.records b))).queued b ⟨u, v.token, w.now, false, 0⟩ →
      y.bank = x.bank → x.vouching.Queueable w u b → Staked w k x y (.decreaseStake u b n)
  | withdrawn {u b v} : findVouch u (x.records b) = some v → u ≠ w.contract → k.hasActiveLoan b = false →
      y.vouching = x.vouching.saved u b v.token (removeVouch u (x.records b)) →
      y.bank = x.bank.move v.token w.contract u v.stake → Staked w k x y (.withdrawVouch u b)
  | withdrawnLater {u b v} : findVouch u (x.records b) = some v → k.hasActiveLoan b = true →
      y.vouching =
        (x.vouching.saved u b v.token (removeVouch u (x.records b))).queued b ⟨u, v.token, w.now, false, 0⟩ →
      y.bank = x.bank → x.vouching.Queueable w u b → Staked w k x y (.withdrawVouch u b)
  | requested {u b fee v} : findVouch u (x.records b) = some v → u ≠ w.contract → k.hasActiveLoan b = false →
      y.vouching = x.vouching.setVouches b (removeVouch u (x.records b)) →
      y.bank = x.bank.move v.token w.contract u v.stake → Staked w k x y (.requestWithdrawal u b fee)
  | requestedLater {u b fee v} : findVouch u (x.records b) = some v → u ≠ w.contract → 0 ≤ fee →
      k.hasActiveLoan b = true → y.vouching = x.vouching.queued b ⟨u, v.token, w.now, false, fee⟩ →
      y.bank = (if 0 < fee then x.bank.move v.token u w.contract fee else x.bank) → x.vouching.Queueable w u b →
      Staked w k x y (.requestWithdrawal u b fee)
  | halved {u b v} : findVouch u (x.records b) = some v → u ≠ w.contract → k.hasActiveLoan b = true →
      0 < withdrawable v.stake →
      y.vouching = x.vouching.setVouches b (setStake u (v.stake - withdrawable v.stake) (x.records b)) →
      y.bank = (x.bank.move v.token w.contract u
        (withdrawable v.stake - withdrawalPenalty (withdrawable v.stake))).moves
        (penaltyShares w v.token u (withdrawalPenalty (withdrawable v.stake))
          (setStake u (v.stake - withdrawable v.stake) (x.records b))) →
      Staked w k x y (.partialWithdraw u b)
  | halvedLater {u b v} : findVouch u (x.records b) = some v → k.hasActiveLoan b = false →
      y.vouching = x.vouching.queued b ⟨u, v.token, w.now, true, 0⟩ → y.bank = x.bank →
      x.vouching.Queueable w u b → Staked w k x y (.partialWithdraw u b)
  | transferred {src dst b v} : src ≠ dst → findVouch src (x.records b) = some v →
      (∀ u ∈ x.records b, ¬ (u.voucher = dst ∧ u.token = v.token)) → k.hasActiveLoan b = false →
      y.vouching = x.vouching.transferred src dst b v.token → y.bank = x.bank →
      Staked w k x y (.transferVouch src dst b)
  | split {u b new n v} : findVouch u (x.records b) = some v → u ≠ new → 0 < n → n < v.stake →
      (∀ r ∈ x.records b, ¬ (r.voucher = new ∧ r.token = v.token)) → k.hasActiveLoan b = false →
      y.vouching = x.vouching.split w.now b new n v → y.bank = x.bank → Staked w k x y (.splitVouch u b new n)
  | rotated {u old new v} : old ≠ new → findVouch u (x.records old) = some v → k.hasActiveLoan old = false →
      (∀ r ∈ x.records new, ¬ (r.voucher = u ∧ r.token = v.token)) →
      y.vouching = x.vouching.moved w.now old new v → y.bank = x.bank → Staked w k x y (.rotateToNewBorrower u old new)

/-- Marking ends active loans and starts none. -/
theorem LoanBook.markAll_idle {k : LoanBook} {b : Address} (h : k.hasActiveLoan b = false) (now : Nat)
    (ids : List Nat) :
    (k.markAll now ids).hasActiveLoan b = false := by
  by_contra hactive
  obtain ⟨loan', hrecord, hstatus⟩ := hasActiveLoan_iff.1 (Bool.of_not_eq_false hactive)
  obtain ⟨id, hid, hl⟩ := Option.bind_eq_some_iff.1 hrecord
  rw [markAll_activeLoan] at hid
  have hold : ∃ loan, k.loan id = some loan ∧ loan.status = .active := by
    rw [markAll_loan] at hl
    split at hl
    · obtain ⟨loan, hloan, rfl⟩ := Option.map_eq_some_iff.1 hl
      refine ⟨loan, hloan, ?_⟩
      unfold markRecord at hstatus
      split at hstatus
      · cases hstatus
      · exact hstatus
    · exact ⟨loan', hl, hstatus⟩
  obtain ⟨loan, hloan, hactive⟩ := hold
  have hhas : k.hasActiveLoan b = true :=
    hasActiveLoan_iff.2 ⟨loan, by rw [getActiveLoanRecord, hid]; exact hloan, hactive⟩
  rw [h] at hhas
  cases hhas

namespace Committed

variable {w : World} {k : LoanBook} {x y z : Vault}

theorem trans (h : Committed w k x y) (h' : Committed w k y z) : Committed w k x z := by
  induction h with
  | nil => exact h'
  | cons ha hu _ ih => exact .cons ha hu (ih h')

theorem mark (h : Committed w k x y) (now : Nat) (ids : List Nat) : Committed w (k.markAll now ids) x y := by
  induction h with
  | nil => exact .nil
  | cons ha hu _ ih => exact .cons { ha with idle := LoanBook.markAll_idle ha.idle now ids } hu ih

end Committed

/-! ## Lookups, transfers and checks -/

section Calls

variable {ctx : Context} {s : Store}

theorem requireVouch_spec (voucher borrower : Address) (x : Vouching) :
    Yields (requireVouch voucher borrower) ctx x fun v x' =>
      findVouch voucher (x.vouchesOf borrower) = some v ∧ x' = x := by
  simp only [requireVouch, yields_steps]
  intro vouches hv v hfind
  rw [Vouching.vouchesOf, hv]
  exact ⟨hfind, trivial⟩

@[simp] theorem yields_queueWithdrawalInternal (voucher borrower token : Address) (isPartial : Bool) (fee : Int)
    (x : Vouching) (Q : Unit → Vouching → Prop) :
    Yields (queueWithdrawalInternal voucher borrower token isPartial fee) ctx x Q ↔
      ((∀ q ∈ x.withdrawalQueue borrower, q.voucher ≠ voucher) →
        (x.withdrawalQueue borrower).length < ctx.maxWithdrawalQueueSize →
        Q () (x.queued borrower ⟨voucher, token, ctx.now, isPartial, fee⟩)) := by
  simp [queueWithdrawalInternal, Vouching.queued]

@[simp] theorem yields_saveVouches (voucher borrower token : Address) (vouches : List VouchRecord) (x : Vouching)
    (Q : Unit → Vouching → Prop) :
    Yields (saveVouches voucher borrower token vouches) ctx x Q ↔ Q () (x.saved voucher borrower token vouches) := by
  simp [saveVouches, Vouching.saved]

@[simp] theorem yields_setVouches (borrower : Address) (vouches : List VouchRecord) (x : Vouching)
    (Q : Unit → Vouching → Prop) :
    Yields (setVouches borrower vouches) ctx x Q ↔ Q () (x.setVouches borrower vouches) := by
  simp [setVouches]

theorem receive_spec (token src : Address) (amount : Int) (b : Ledger) :
    Yields (receive token src amount) ctx b fun _ b' => b' = b.move token src ctx.contract amount := by
  simp only [receive, yields_steps, yields_collect, yields_i128]
  exact fun _ _ _ _ => trivial

theorem collectPriorityFee_spec (token voucher : Address) (fee : Int) (b : Ledger) :
    Yields (collectPriorityFee token voucher fee) ctx b fun _ b' =>
      b' = if 0 < fee then b.move token voucher ctx.contract fee else b := by
  simp only [collectPriorityFee, yields_ite, yields_steps, yields_requireAllowedToken, yields_collect]
  exact ⟨fun hfee _ _ _ => (if_pos hfee).symm, fun hfee => (if_neg hfee).symm⟩

instance {γ : Type} {f : Ledger → γ} (stake fee : Int) : Keeps f (requireFeeCap stake fee) := by
  unfold requireFeeCap; infer_instance

theorem payFeeShares_spec (token : Address) (fees total : Int) (vouches : List VouchRecord) (b : Ledger) :
    Yields (payFeeShares token fees total vouches) ctx b fun _ b' =>
      b' = b.moves (feeShares ctx.toWorld token fees total vouches) := by
  induction vouches generalizing b with
  | nil => simp [payFeeShares, feeShares]
  | cons v vs ih =>
    simp only [payFeeShares, yields_bind, yields_i128, yields_divI128, yields_ite, yields_pay]
    refine fun _ _ _ => ⟨fun hshare _ _ => ?_, fun hshare => ?_⟩
    · have hcons : feeShares ctx.toWorld token fees total (v :: vs) =
          ctx.toWorld.payment token v.voucher ((fees * v.stake).tdiv total) ::
            feeShares ctx.toWorld token fees total vs := List.filterMap_cons_some (if_pos hshare)
      rw [hcons]
      exact ih _
    · have hcons : feeShares ctx.toWorld token fees total (v :: vs) = feeShares ctx.toWorld token fees total vs :=
        List.filterMap_cons_none (if_neg hshare)
      rw [hcons]
      exact ih b

theorem distributePenalty_spec (token withdrawing : Address) (penalty : Int) (vouches : List VouchRecord) (b : Ledger) :
    Yields (distributePenalty token withdrawing penalty vouches) ctx b fun _ b' =>
      b' = b.moves (penaltyShares ctx.toWorld token withdrawing penalty vouches) := by
  simp only [distributePenalty, yields_ite, yields_steps, penaltyShares]
  refine ⟨fun hnone => ?_, fun hsome => ?_⟩
  · rw [if_pos (.inl hnone), Bank.moves_nil]
  · refine (yields_sumI128 _ _ _ _ _).mono ?_
    rintro total _ ⟨rfl, rfl⟩
    rw [zero_add]
    refine ⟨fun hnobody => ?_, fun hothers => ?_⟩
    · rw [if_pos (.inr hnobody), Bank.moves_nil]
    · rw [if_neg (not_or.2 ⟨hsome, hothers⟩)]
      exact payFeeShares_spec _ _ _ _ _

section Validation

variable {γ : Type} {f : Vouching → γ}

instance (cfg : VouchConfig) (borrower : Address) (stake : Int) : Keeps f (requireMinStake cfg borrower stake) where
  out ctx x := by
    simp only [requireMinStake, yields_steps, yields_ite]
    refine ⟨fun _ => ?_, fun _ => trivial⟩
    split
    · simp
    · simp

instance (cfg : VouchConfig) (voucher borrower : Address) : Keeps f (requireVouchCooldown cfg voucher borrower) := by
  unfold requireVouchCooldown; infer_instance

instance (chainId : Option Nat) : Keeps f (validateBridge chainId) := by
  unfold validateBridge; infer_instance

instance (cfg : VouchConfig) (voucher borrower : Address) (stake : Int) (token : Address) (chainId : Option Nat) :
    Keeps f (validateVoucher cfg voucher borrower stake token chainId) := by
  unfold validateVoucher; infer_instance

end Validation

/-- What `validate_vouch` checks after it has marked the borrower's loans. -/
theorem admitVouch_spec (cfg : VouchConfig) (voucher borrower : Address) (stake : Int) (token : Address)
    (chainId : Option Nat) :
    Yields (admitVouch cfg voucher borrower stake token chainId) ctx s fun vouches t =>
      t = s ∧ vouches = s.records borrower ∧ (∀ u ∈ s.records borrower, ¬ (u.voucher = voucher ∧ u.token = token)) ∧
        (s.records borrower).length < cfg.maxVouchersPerBorrower ∧ s.book.hasActiveLoan borrower = false := by
  unfold admitVouch requireRoom
  simp only [yields_steps, yields_parts]
  refine yields_keeps id fun _ x hx hunique hroom hidle _ => ?_
  rw [id, id] at hx
  subst hx
  exact ⟨rfl, rfl, hunique, hroom, hidle⟩

/-! ## Adding records -/

theorem commitVouch_spec (voucher borrower : Address) (stake : Int) (token : Address) (chainId : Option Nat)
    (x : Vault) :
    Yields (commitVouch voucher borrower stake token (x.records borrower) chainId) ctx x fun _ y =>
      ∃ record : VouchRecord, record.voucher = voucher ∧ record.stake = stake ∧ record.token = token ∧
        record.delegate = none ∧
        y = { vouching := x.vouching.committed ctx.now borrower record
              bank := x.bank.move token voucher ctx.contract stake } := by
  simp only [commitVouch, yields_steps, yields_parts]
  refine (receive_spec token voucher stake _).mono ?_
  rintro - _ rfl
  exact ⟨_, rfl, rfl, rfl, rfl, rfl⟩

/-- A vouch adds one record, which has no delegate yet. -/
theorem vouch_stores (voucher borrower : Address) (stake : Int) (token : Address) (chainId : Nat) :
    Yields (vouch voucher borrower stake token chainId) ctx s fun _ t =>
      ∃ record : VouchRecord, Admits ctx.toWorld t.book s.records borrower record ∧ record.voucher ≠ ctx.contract ∧
        record.delegate = none ∧
        t.vault =
          { vouching := s.vault.vouching.committed ctx.now borrower record
            bank := s.vault.bank.move record.token record.voucher ctx.contract record.stake } := by
  unfold vouch doVouch
  simp only [yields_steps, yields_requireAuth]
  rintro ⟨-, hcontract⟩
  refine yields_keeps Store.vault fun _ s₁ h₁ => ?_
  refine yields_keeps Store.vault fun _ s₂ h₂ => ?_
  refine yields_keeps Store.vault fun _ s₃ h₃ => ?_
  refine yields_keeps Store.vault fun _ s₄ h₄ => ?_
  have hvault : s₄.vault = s.vault := by rw [h₄, h₃, h₂, h₁]
  rw [validateVouch_eq]
  unfold validateBorrower
  simp only [yields_steps, yields_requirePositiveAmount, yields_parts]
  intro hstake hself hblack
  refine (yields_true _ _ _).mono fun _ k _ => ?_
  refine (admitVouch_spec _ _ _ _ _ _).mono ?_
  rintro _ _ ⟨rfl, rfl, hunique, hroom, hidle⟩
  refine (commitVouch_spec _ _ _ _ _ _).mono ?_
  rintro - _ ⟨record, rfl, rfl, rfl, hdelegate, rfl⟩
  rw [Store.records, ← hvault]
  exact ⟨record, ⟨hstake, hself, hunique, hblack, hroom, hidle⟩, hcontract, hdelegate, rfl⟩

theorem vouch_committed (voucher borrower : Address) (stake : Int) (token : Address) (chainId : Nat) :
    Yields (vouch voucher borrower stake token chainId) ctx s fun _ t =>
      Committed ctx.toWorld t.book s.vault t.vault := by
  refine (vouch_stores voucher borrower stake token chainId).mono ?_
  rintro _ t ⟨record, hadmits, hcontract, -, hvault⟩
  rw [hvault]
  exact .cons hadmits hcontract .nil

theorem tryValidateVouch_spec (cfg : VouchConfig) (voucher borrower : Address) (stake : Int) (token : Address)
    (chainId : Option Nat) :
    Yields (tryValidateVouch cfg voucher borrower stake token chainId) ctx s fun r t =>
      t.vault = s.vault ∧ ∀ vouches, r = .ok vouches →
        (0 < stake ∧ voucher ≠ borrower ∧ ctx.blacklisted borrower = false) ∧
        (∀ u ∈ s.records borrower, ¬ (u.voucher = voucher ∧ u.token = token)) ∧
        (s.records borrower).length < cfg.maxVouchersPerBorrower ∧ t.book.hasActiveLoan borrower = false := by
  obtain ⟨r, hr, hiff⟩ := attempt_validateBorrower_run ctx s voucher borrower stake
  unfold tryValidateVouch
  rw [yields_bind]
  refine (Yields.of_run' hr).mono ?_
  rintro r s ⟨rfl, rfl⟩
  cases r with
  | error e => simp
  | ok u =>
    simp only [yields_bind, yields_parts]
    refine (yields_true _ _ _).mono fun _ k _ => ?_
    refine yields_attempt _ _ _ _ _ ((admitVouch_spec _ _ _ _ _ _).mono ?_) fun e => ⟨rfl, fun _ h => by cases h⟩
    rintro vouches _ ⟨rfl, -, hunique, hroom, hidle⟩
    exact ⟨rfl, fun _ _ => ⟨hiff.1 rfl, hunique, hroom, hidle⟩⟩

theorem batchEntry_committed {voucher : Address} (hcontract : voucher ≠ ctx.contract) (token : Address)
    (chainId : Option Nat) (borrower : Address) (stake : Int) :
    Yields (batchEntry ctx.vouchConfig voucher token chainId borrower stake) ctx s fun _ t =>
      Committed ctx.toWorld t.book s.vault t.vault := by
  unfold batchEntry
  rw [yields_bind]
  refine (tryValidateVouch_spec _ _ _ _ _ _).mono fun r s₁ hr => ?_
  obtain ⟨hvault, hadmits⟩ := hr
  have hbefore : s₁.records = s.records := congrArg Vault.records hvault
  rw [← hvault]
  cases r with
  | error e =>
    rw [yields_pure]
    exact .nil
  | ok vouches =>
    obtain ⟨⟨hstake, hself, hblack⟩, hunique, hroom, hidle⟩ := hadmits vouches rfl
    rw [← hbefore] at hunique hroom
    simp only [yields_steps]
    refine yields_attempt _ _ _ _ _ ?_ fun e => ?_
    · simp only [yields_parts, yields_pure]
      refine (commitVouch_spec _ _ _ _ _ _).mono ?_
      rintro - _ ⟨record, rfl, rfl, rfl, -, rfl⟩
      exact .cons ⟨hstake, hself, hunique, hblack, hroom, hidle⟩ hcontract .nil
    · rw [yields_pure]
      exact .nil

theorem batchEntries_committed {voucher : Address} (hcontract : voucher ≠ ctx.contract) (token : Address)
    (chainId : Option Nat) (results : List BatchVouchResult) (batch : List (Address × Int)) :
    Yields (batchEntries ctx.vouchConfig voucher token chainId results batch) ctx s fun _ t =>
      Committed ctx.toWorld t.book s.vault t.vault := by
  induction batch generalizing results s with
  | nil =>
    simp only [batchEntries, yields_pure]
    exact .nil
  | cons entry rest ih =>
    unfold batchEntries
    rw [yields_bind]
    refine (batchEntry_committed hcontract token chainId entry.1 entry.2).mono fun result s₁ hfirst => ?_
    refine ((batchEntries_book _ voucher token chainId _ rest).and (ih _)).mono fun _ t ht => ?_
    obtain ⟨hbook, hrest⟩ := ht
    rw [hbook] at hrest ⊢
    exact (hfirst.mark _ _).trans hrest

theorem batchVouch_committed (voucher : Address) (borrowers : List Address) (stakes : List Int) (token : Address)
    (chainId : Option Nat) :
    Yields (batchVouch voucher borrowers stakes token chainId) ctx s fun _ t =>
      Committed ctx.toWorld t.book s.vault t.vault := by
  unfold batchVouch
  simp only [yields_steps, yields_requireAuth, yields_requireAllowedToken]
  rintro ⟨-, hcontract⟩
  refine yields_keeps Store.vault fun _ s₁ h₁ => ?_
  intro _ _
  rw [← h₁]
  exact batchEntries_committed hcontract token chainId [] _

/-! ## Changing, withdrawing and handing on -/

theorem increaseStake_staked (voucher borrower : Address) (additional : Int) :
    Yields (increaseStake voucher borrower additional) ctx s fun _ t =>
      Staked ctx.toWorld t.book s.vault t.vault (.increaseStake voucher borrower additional) := by
  unfold increaseStake
  simp only [yields_steps, yields_requireAuth, yields_requireAllowedToken, yields_requirePositiveAmount, yields_i128,
    yields_parts, yields_saveVouches]
  rintro ⟨-, hcontract⟩
  refine (yields_true _ _ _).mono fun _ a _ hpos => ?_
  refine (requireVouch_spec _ _ _).mono ?_
  rintro v _ ⟨hfind, rfl⟩ hidle _
  refine (receive_spec _ _ _ _).mono ?_
  rintro - _ rfl _
  exact .increased hfind hcontract hpos hidle rfl rfl

theorem decreaseStake_staked (voucher borrower : Address) (amount : Int) :
    Yields (decreaseStake voucher borrower amount) ctx s fun _ t =>
      Staked ctx.toWorld t.book s.vault t.vault (.decreaseStake voucher borrower amount) := by
  unfold decreaseStake
  simp only [yields_steps, yields_requireAuth, yields_requireAllowedToken, yields_requirePositiveAmount, yields_ite,
    yields_parts, yields_saveVouches, yields_pay, yields_queueWithdrawalInternal]
  rintro ⟨-, hcontract⟩
  refine (yields_true _ _ _).mono fun _ a _ hpos => ?_
  refine (requireVouch_spec _ _ _).mono ?_
  rintro v _ ⟨hfind, rfl⟩ hle
  refine ⟨fun hactive hnew hroom => ?_, fun hidle _ _ _ => ?_⟩
  · exact .decreasedLater hfind hpos hle hactive rfl rfl ⟨hnew, hroom⟩
  · exact .decreased hfind hcontract hpos hle (Bool.eq_false_of_not_eq_true hidle) rfl rfl

theorem withdrawVouch_staked (voucher borrower : Address) :
    Yields (withdrawVouch voucher borrower) ctx s fun _ t =>
      Staked ctx.toWorld t.book s.vault t.vault (.withdrawVouch voucher borrower) := by
  unfold withdrawVouch
  simp only [yields_steps, yields_requireAuth, yields_requireAllowedToken, yields_ite, yields_parts, yields_saveVouches,
    yields_pay, yields_queueWithdrawalInternal]
  rintro ⟨-, hcontract⟩
  refine (yields_true _ _ _).mono fun _ a _ => ?_
  refine (requireVouch_spec _ _ _).mono ?_
  rintro v _ ⟨hfind, rfl⟩
  refine ⟨fun hactive hnew hroom => ?_, fun hidle _ _ _ => ?_⟩
  · exact .withdrawnLater hfind hactive rfl rfl ⟨hnew, hroom⟩
  · exact .withdrawn hfind hcontract (Bool.eq_false_of_not_eq_true hidle) rfl rfl

theorem requestWithdrawal_staked (voucher borrower : Address) (fee : Int) :
    Yields (requestWithdrawal voucher borrower fee) ctx s fun _ t =>
      Staked ctx.toWorld t.book s.vault t.vault (.requestWithdrawal voucher borrower fee) := by
  unfold requestWithdrawal
  simp only [yields_steps, yields_requireAuth, yields_requireAllowedToken, yields_ite, yields_parts, yields_setVouches,
    yields_pay, yields_queueWithdrawalInternal]
  rintro ⟨-, hcontract⟩
  refine (yields_true _ _ _).mono fun _ a _ hfee => ?_
  refine (requireVouch_spec _ _ _).mono ?_
  rintro v _ ⟨hfind, rfl⟩
  refine yields_keeps id fun _ bank hbank => ?_
  obtain rfl : bank = s.vault.bank := hbank
  refine ⟨fun hactive => ?_, fun hidle _ _ _ => ?_⟩
  · refine (collectPriorityFee_spec _ _ _ _).mono ?_
    rintro - _ rfl hnew hroom
    exact .requestedLater hfind hcontract hfee hactive rfl rfl ⟨hnew, hroom⟩
  · exact .requested hfind hcontract (Bool.eq_false_of_not_eq_true hidle) rfl rfl

theorem partialWithdraw_staked (voucher borrower : Address) :
    Yields (partialWithdraw voucher borrower) ctx s fun _ t =>
      Staked ctx.toWorld t.book s.vault t.vault (.partialWithdraw voucher borrower) := by
  unfold partialWithdraw
  simp only [yields_steps, yields_requireAuth, yields_requireAllowedToken, yields_ite, yields_i128, yields_parts,
    yields_setVouches, yields_pay, yields_queueWithdrawalInternal]
  rintro ⟨-, hcontract⟩
  refine (yields_true _ _ _).mono fun _ a _ => ?_
  refine (requireVouch_spec _ _ _).mono ?_
  rintro v _ ⟨hfind, rfl⟩
  refine ⟨fun hidle hnew hroom => ?_, fun hactive _ hpos _ _ _ _ _ _ => ?_⟩
  · exact .halvedLater hfind hidle rfl rfl ⟨hnew, hroom⟩
  · refine (distributePenalty_spec _ _ _ _ _).mono ?_
    rintro - _ rfl
    exact .halved hfind hcontract (Bool.of_not_eq_false hactive) hpos rfl rfl

theorem transferVouch_staked (src dst borrower : Address) :
    Yields (transferVouch src dst borrower) ctx s fun _ t =>
      Staked ctx.toWorld t.book s.vault t.vault (.transferVouch src dst borrower) := by
  unfold transferVouch
  simp only [recordTransfer, yields_steps, yields_requireAuth, yields_parts]
  intro _
  refine (yields_true _ _ _).mono fun _ a _ hne => ?_
  refine (requireVouch_spec _ _ _).mono ?_
  rintro v _ ⟨hfind, rfl⟩ hunique hidle
  exact .transferred hne hfind hunique hidle rfl rfl

theorem splitVouch_staked (voucher borrower newVoucher : Address) (amount : Int) :
    Yields (splitVouch voucher borrower newVoucher amount) ctx s fun _ t =>
      Staked ctx.toWorld t.book s.vault t.vault (.splitVouch voucher borrower newVoucher amount) := by
  unfold splitVouch
  simp only [recordSplit, yields_steps, yields_requireAuth, yields_requirePositiveAmount, yields_i128, yields_parts]
  intro _
  refine (yields_true _ _ _).mono fun _ a _ hpos hne => ?_
  refine (requireVouch_spec _ _ _).mono ?_
  rintro v _ ⟨hfind, rfl⟩ hlt _ _ hidle hunique
  obtain ⟨-, rfl⟩ := findVouch_some hfind
  exact .split hfind hne hpos hlt hunique hidle rfl rfl

instance (lastRotation : Option Nat) : Keeps (id : Vouching → Vouching) (requireRotationCooldown lastRotation) := by
  cases lastRotation <;> unfold requireRotationCooldown <;> dsimp only <;> infer_instance

theorem rotateToNewBorrower_staked (voucher old new : Address) :
    Yields (rotateToNewBorrower voucher old new) ctx s fun _ t =>
      Staked ctx.toWorld t.book s.vault t.vault (.rotateToNewBorrower voucher old new) := by
  unfold rotateToNewBorrower
  simp only [moveRecord, yields_steps, yields_requireAuth, yields_parts]
  intro _
  refine (yields_true _ _ _).mono fun _ a _ hne => ?_
  refine yields_keeps id fun _ x hx => ?_
  rw [id, id] at hx
  subst hx
  refine (requireVouch_spec _ _ _).mono ?_
  rintro v _ ⟨hfind, rfl⟩ hidle hunique
  obtain ⟨-, rfl⟩ := findVouch_some hfind
  exact .rotated hne hfind hidle hunique rfl rfl

end Calls

/-! ## All of them -/

/-- The calls that work on single records. -/
def Op.stakes : Op → Bool
  | .vouch .. | .batchVouch .. | .increaseStake .. | .decreaseStake .. | .withdrawVouch .. | .requestWithdrawal ..
  | .partialWithdraw .. | .transferVouch .. | .splitVouch .. | .rotateToNewBorrower .. => true
  | _ => false

theorem dispatch_staked {op : Op} (h : op.stakes = true) {ctx : Context} {s : Store} :
    Yields (dispatch op) ctx s fun _ t => Staked ctx.toWorld t.book s.vault t.vault op := by
  cases op with
  | vouch voucher borrower stake token chainId =>
    exact (vouch_committed voucher borrower stake token chainId).mono fun _ _ => .vouched
  | batchVouch voucher borrowers stakes token chainId =>
    simp only [dispatch, discard, yields_steps]
    exact (batchVouch_committed voucher borrowers stakes token chainId).mono fun _ _ => .batched
  | increaseStake voucher borrower additional => exact increaseStake_staked voucher borrower additional
  | decreaseStake voucher borrower amount => exact decreaseStake_staked voucher borrower amount
  | withdrawVouch voucher borrower => exact withdrawVouch_staked voucher borrower
  | requestWithdrawal voucher borrower fee => exact requestWithdrawal_staked voucher borrower fee
  | partialWithdraw voucher borrower => exact partialWithdraw_staked voucher borrower
  | transferVouch src dst borrower => exact transferVouch_staked src dst borrower
  | splitVouch voucher borrower newVoucher amount =>
    simp only [dispatch, discard, yields_steps]
    exact splitVouch_staked voucher borrower newVoucher amount
  | rotateToNewBorrower voucher old new => exact rotateToNewBorrower_staked voucher old new
  | _ => cases h

/-- What a vouching call that goes through leaves. -/
theorem staked_of {s : State} {c : Call} {t : Store} (h : exec c s = .ok t) (hop : c.op.stakes = true) :
    Staked s.world t.book s.store.vault t.vault c.op :=
  yields_exec (dispatch_staked hop) h

end QuorumCredit
