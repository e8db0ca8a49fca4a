import QuorumCredit.Guarantor
import QuorumCredit.Host.ProRata
/-!
# The custody of guarantees

Every request locks an amount. What left of it is read off the token ledger, call by
call: a lock may leave once, by the release or by the claim, and a request may replace
only a lock that has left.
-/

open Host Function

namespace QuorumCredit

def GuaranteeStore.balance (s : GuaranteeStore) (token who : Address) : Int := s.core.vault.bank.balance token who

def GuaranteeStore.outflow (s : GuaranteeStore) (who : Address) : Int := Bank.outflow s.core.vault.bank.log who

/-! ## What a call does -/

/-- What a call that goes through found and did. -/
inductive GuaranteeEffect (w : World) (s t : GuaranteeStore) : GuaranteeOp → Prop
  | requested {id guarantor amount token} (record : GuarantorRecord) : record.guaranteeAmount = amount →
      record.status = .active → 0 < amount →
      t.guarantees.guarantorRecord = update s.guarantees.guarantorRecord id (some record) →
      t.core.records = s.core.records →
      t.balance token w.contract = s.balance token w.contract + amount →
      GuaranteeEffect w s t (.requestGuarantorForLoan id guarantor amount token)
  | released {id record} : s.guarantees.guarantorRecord id = some record → record.status = .active →
      t.guarantees.guarantorRecord =
        update s.guarantees.guarantorRecord id (some { record with status := .released, releasedAt := some w.now }) →
      t.core.records = s.core.records → t.outflow w.contract = s.outflow w.contract + record.guaranteeAmount →
      GuaranteeEffect w s t (.releaseGuarantor id)
  | claimed {id record} : s.guarantees.guarantorRecord id = some record → record.status ≠ .claimed →
      t.guarantees.guarantorRecord =
        update s.guarantees.guarantorRecord id (some { record with status := .claimed }) →
      t.core.records = s.core.records →
      ((∀ b, WellFormed (s.core.records b)) → 0 ≤ record.guaranteeAmount →
        t.outflow w.contract = s.outflow w.contract + record.guaranteeAmount) →
      GuaranteeEffect w s t (.claimGuarantorCoverage id)
  | core {op} : t.guarantees = s.guarantees → VouchEffect w s.core t.core op → GuaranteeEffect w s t (.core op)

section

variable {ctx : Context}

theorem yields_findLoan (id : Nat) (k : LoanBook) (Q : LoanRecord → LoanBook → Prop) :
    Yields (findLoan id) ctx k Q ↔ ∀ loan, k.loan id = some loan → Q loan k := by
  simp [findLoan]

theorem yields_getObligation (guarantor : Address) (id : Nat) (g : Guarantees)
    (Q : GuarantorObligation → Guarantees → Prop) :
    Yields (getObligation guarantor id) ctx g Q ↔ ∀ o, g.guarantorObligation guarantor id = some o → Q o g := by
  simp [getObligation]

theorem yields_getStats (guarantor : Address) (g : Guarantees) (Q : GuarantorStats → Guarantees → Prop) :
    Yields (getStats guarantor) ctx g Q ↔ ∀ stats, g.guarantorStats guarantor = some stats → Q stats g := by
  simp [getStats]

/-- The voucher's part of the coverage. -/
def coverageShare (coverage totalStake : Int) (v : VouchRecord) : Int :=
  max 0 ((coverage * v.stake).tdiv totalStake)

theorem yields_payCoverage (token : Address) (coverage totalStake : Int) (vouches : List VouchRecord)
    (distributed : Int) (b : Ledger) :
    Yields (payCoverage token coverage totalStake vouches distributed) ctx b fun distributed' b' =>
      distributed' =
          distributed + ((vouches.filter (·.token = token)).map (coverageShare coverage totalStake)).sum ∧
        Bank.outflow b'.log ctx.contract = Bank.outflow b.log ctx.contract +
          ((vouches.filter (·.token = token)).map (coverageShare coverage totalStake)).sum := by
  induction vouches generalizing distributed b with
  | nil => simp [payCoverage]
  | cons v vouches ih =>
    rw [payCoverage]
    split
    case isTrue htoken =>
      rw [List.filter_cons_of_neg (by simpa using htoken)]
      exact ih distributed b
    case isFalse htoken =>
      rw [List.filter_cons_of_pos (by simpa using htoken), List.map_cons, List.sum_cons]
      simp only [yields_bind, yields_i128, yields_divI128, yields_ite, yields_pay]
      intro _ _ _
      refine ⟨fun hpos _ _ _ => (ih _ _).mono fun _ b' hrest => ?_, fun hnot => (ih _ _).mono fun _ b' hrest => ?_⟩
      · obtain ⟨htotal, hout⟩ := hrest
        rw [Bank.outflow_paid] at hout
        rw [coverageShare, max_eq_right hpos.le]
        exact ⟨by omega, by omega⟩
      · rw [coverageShare, max_eq_left (not_lt.1 hnot), zero_add]
        exact hrest

/-- The vouchers' parts are within the coverage. -/
theorem coverageShares_le {vouches : List VouchRecord} (hstakes : ∀ v ∈ vouches, 0 ≤ v.stake) {coverage : Int}
    (hcoverage : 0 ≤ coverage) (htotal : 0 < (vouches.map (·.stake)).sum) :
    (vouches.map (coverageShare coverage (vouches.map (·.stake)).sum)).sum ≤ coverage := by
  refine sum_le_of_prorata htotal hcoverage (fun v hv => ?_) le_rfl
  have hscaled : 0 ≤ coverage * v.stake := mul_nonneg hcoverage (hstakes v hv)
  rw [coverageShare, max_eq_right (Int.tdiv_nonneg hscaled htotal.le), mul_comm v.stake]
  exact tdiv_mul_le hscaled htotal

/-- All of the coverage goes out, if no stake is negative. -/
theorem yields_distributeCoverage (borrower token : Address) (coverage : Int) (x : Vault) :
    Yields (distributeCoverage borrower token coverage) ctx x fun _ y => y.vouching = x.vouching ∧
      (0 ≤ coverage → (∀ v ∈ x.records borrower, 0 ≤ v.stake) →
        Bank.outflow y.bank.log ctx.contract = Bank.outflow x.bank.log ctx.contract + coverage) := by
  simp only [distributeCoverage, yields_steps]
  refine (yields_sumI128 _ _ _ _ _).mono ?_
  rintro total y ⟨htotal, rfl⟩
  rw [zero_add] at htotal
  rw [yields_ite]
  constructor
  · intro hpos
    simp only [yields_bind, yields_parts]
    refine (yields_payCoverage _ _ _ _ _ _).mono fun distributed b hpaid => ?_
    obtain ⟨hsum, hout⟩ := hpaid
    rw [zero_add] at hsum
    rw [← hsum] at hout
    simp only [yields_i128, yields_ite, yields_zoom, yields_pay, yields_pure]
    intro _
    refine ⟨fun _ _ _ => ⟨rfl, fun _ _ => ?_⟩, fun hnone => ⟨rfl, fun hcoverage hstakes => ?_⟩⟩
    · refine (Bank.outflow_paid b token ctx.contract borrower (coverage - distributed)).trans ?_
      rw [hout]
      exact (add_assoc _ _ _).trans (by rw [add_sub_cancel]; rfl)
    · have hle : distributed ≤ coverage := by
        rw [hsum, htotal]
        refine coverageShares_le (fun v hv => hstakes v (List.mem_filter.1 hv).1) hcoverage ?_
        rw [← htotal]
        exact hpos
      have hall : distributed = coverage := by omega
      rw [← hall]
      exact hout
  · intro _
    simp only [yields_parts, yields_pay]
    exact fun _ _ => ⟨rfl, fun _ _ => Bank.outflow_paid ..⟩

theorem yields_guaranteeOp (op : GuaranteeOp) (s : GuaranteeStore) :
    Yields op.run ctx s fun _ t => GuaranteeEffect ctx.toWorld s t op := by
  cases op with
  | requestGuarantorForLoan id guarantor amount token =>
    simp only [GuaranteeOp.run, requestGuarantorForLoan, onGuarantees, yields_steps, yields_requireAuth,
      yields_requireAllowedToken, yields_collect, yields_findLoan, yields_u32, yields_i128, yields_parts]
    intro loan _
    refine (yields_true _ _ _).mono fun _ access _ => ?_
    intro _ hamount _ hauth _ _ _ _ _
    refine .requested _ rfl rfl (not_le.1 fun hle => hamount (.inl hle)) rfl rfl ?_
    exact (Bank.balance_paid_in _ _ _ hauth.2 _).trans (by rw [if_pos rfl]; rfl)
  | releaseGuarantor id =>
    simp only [GuaranteeOp.run, releaseGuarantor, onGuarantees, yields_steps, yields_pay, yields_getObligation,
      yields_getStats, yields_u32, yields_ite, yields_parts]
    refine (yields_true _ _ _).mono fun _ access _ => ?_
    intro record hrecord hactive _ _ obligation _ stats _
    refine ⟨fun _ _ _ => ?_, fun _ => ?_⟩
    · exact .released hrecord hactive rfl rfl (Bank.outflow_paid ..)
    · exact .released hrecord hactive rfl rfl (Bank.outflow_paid ..)
  | claimGuarantorCoverage id =>
    simp only [GuaranteeOp.run, discard, claimGuarantorCoverage, onGuarantees, yields_steps, yields_findLoan,
      yields_getObligation, yields_getStats, yields_u32, yields_i128, yields_parts]
    refine (yields_true _ _ _).mono fun _ access _ => ?_
    intro loan _ _ record hrecord hstatus obligation _
    refine (yields_distributeCoverage _ _ _ _).mono fun _ x hcovered => ?_
    obtain ⟨hvouching, hout⟩ := hcovered
    intro stats _ _ _
    refine .claimed hrecord hstatus rfl (congrArg Vouching.vouchesOf hvouching) fun hformed hnonneg => ?_
    exact hout hnonneg fun v hv => ((hformed loan.borrower).staked v hv).le
  | core op =>
    simp only [GuaranteeOp.run, yields_parts]
    exact (dispatch_vouchEffect op).mono fun _ t he => .core rfl he

end

theorem guaranteeEffect_of {s : Situated World GuaranteeStore} {signers : List Address} {op : GuaranteeOp}
    {t : GuaranteeStore} (he : guarantors.exec s signers op = some t) : GuaranteeEffect s.world s.store t op :=
  Component.exec_yields (Q := fun t => GuaranteeEffect s.world s.store t op) (yields_guaranteeOp op s.store) he

/-! ## Locks -/

/-- An amount a guarantor locked, and how much has left the contract for it. -/
structure Lock where
  amount : Int
  left : Int
deriving DecidableEq, Repr

/-- What leaves for a guarantee leaves for the newest lock. -/
def payLock (paid : Int) : List Lock → List Lock
  | [] => []
  | k :: ks => { k with left := k.left + paid } :: ks

/-- The locks behind the loan after the call, by what it moved. -/
def locksAfter (id : Nat) (s : Situated World GuaranteeStore) (op : GuaranteeOp) (t : GuaranteeStore)
    (ks : List Lock) : List Lock :=
  match op with
  | .requestGuarantorForLoan id' _ _ token =>
    if id' = id then
      { amount := t.balance token s.world.contract - s.store.balance token s.world.contract, left := 0 } :: ks
    else ks
  | .releaseGuarantor id' | .claimGuarantorCoverage id' =>
    if id' = id then payLock (t.outflow s.world.contract - s.store.outflow s.world.contract) ks else ks
  | .core _ => ks

/-- The locks behind the loan, newest first. -/
def locks (id : Nat) : GuaranteeHistory → List Lock := guarantors.replay (locksAfter id) []

/-- No lock has left more than once, and each one replaced by a newer has left. -/
def LocksKept (ks : List Lock) : Prop := (∀ k ∈ ks, k.left ≤ k.amount) ∧ ∀ k ∈ ks.tail, k.left = k.amount

instance (ks : List Lock) : Decidable (LocksKept ks) := inferInstanceAs (Decidable (_ ∧ _))

theorem locksKept_cons {k : Lock} {ks : List Lock} :
    LocksKept (k :: ks) ↔ k.left ≤ k.amount ∧ ∀ k' ∈ ks, k'.left = k'.amount := by
  constructor
  · rintro ⟨honce, hreplaced⟩
    exact ⟨honce k List.mem_cons_self, hreplaced⟩
  · rintro ⟨hnewest, hreplaced⟩
    exact ⟨List.forall_mem_cons.2 ⟨hnewest, fun k' hk' => (hreplaced k' hk').le⟩, hreplaced⟩

/-- The loan is Active, or is Defaulted and the coverage not claimed. -/
def GuaranteeStore.Bound (s : GuaranteeStore) (id : Nat) : Prop :=
  ∃ loan ∈ s.core.book.loan id, loan.status = .active ∨
    loan.status = .defaulted ∧ ∀ record ∈ s.guarantees.guarantorRecord id, record.status ≠ .claimed

/-- A release finds the loan no longer bound to the guarantee. -/
def ReleasesFree (s : Situated World GuaranteeStore) (op : GuaranteeOp) : Prop :=
  match op with
  | .releaseGuarantor id => ¬ s.store.Bound id
  | _ => True

/-- No lock has left twice or was replaced while held, and none was released while the loan was bound. -/
def Custody (h : GuaranteeHistory) (_ : Situated World GuaranteeStore) : Prop :=
  (∀ id, LocksKept (locks id h)) ∧ Along (guarantors.WhenDone ReleasesFree) h

/-- The condition on a call: a request finds no active guarantee, a release the loan
neither Active nor Defaulted, and a claim an active guarantee. -/
def KeepsCustody (s : Situated World GuaranteeStore) (op : GuaranteeOp) : Prop :=
  match op with
  | .requestGuarantorForLoan id _ _ _ => ∀ record ∈ s.store.guarantees.guarantorRecord id, record.status ≠ .active
  | .releaseGuarantor id => ∀ loan ∈ s.store.core.book.loan id, loan.status ≠ .active ∧ loan.status ≠ .defaulted
  | .claimGuarantorCoverage id => ∀ record ∈ s.store.guarantees.guarantorRecord id, record.status = .active
  | .core _ => True

instance (s : Situated World GuaranteeStore) (op : GuaranteeOp) : Decidable (KeepsCustody s op) := by
  unfold KeepsCustody
  split <;> infer_instance

/-! ## The record and the newest lock -/

/-- The record of a loan's guarantee, and the locks behind the loan. -/
inductive Recorded : Option GuarantorRecord → List Lock → Prop
  | absent : Recorded none []
  | held {record k ks} : record.status = .active → k.amount = record.guaranteeAmount → 0 < k.amount → k.left = 0 →
      Recorded (some record) (k :: ks)
  | released {record k ks} : record.status = .released → k.amount = record.guaranteeAmount → 0 < k.amount →
      k.left = k.amount → Recorded (some record) (k :: ks)
  | claimed {record k ks} : record.status = .claimed → k.amount = record.guaranteeAmount → 0 < k.amount →
      k.amount ≤ k.left → Recorded (some record) (k :: ks)

theorem Recorded.amount_pos {record : GuarantorRecord} {ks : List Lock} (h : Recorded (some record) ks) :
    0 < record.guaranteeAmount := by
  cases h with
  | held _ hamount hpos => exact hamount ▸ hpos
  | released _ hamount hpos => exact hamount ▸ hpos
  | claimed _ hamount hpos => exact hamount ▸ hpos

theorem Recorded.release {record : GuarantorRecord} {ks : List Lock} (h : Recorded (some record) ks)
    (hactive : record.status = .active) (now : Nat) :
    Recorded (some { record with status := .released, releasedAt := some now })
      (payLock record.guaranteeAmount ks) := by
  cases h with
  | held _ hamount hpos hleft =>
    refine .released rfl hamount hpos ?_
    rw [hleft, zero_add]
    exact hamount.symm
  | released hstatus => cases hactive.symm.trans hstatus
  | claimed hstatus => cases hactive.symm.trans hstatus

theorem Recorded.claim {record : GuarantorRecord} {ks : List Lock} (h : Recorded (some record) ks)
    (hstatus : record.status ≠ .claimed) :
    Recorded (some { record with status := .claimed }) (payLock record.guaranteeAmount ks) := by
  cases h with
  | held _ hamount hpos hleft =>
    refine .claimed rfl hamount hpos ?_
    rw [hleft, zero_add]
    exact hamount.le
  | released _ hamount hpos hleft =>
    refine .claimed rfl hamount hpos ?_
    rw [hleft, ← hamount]
    exact (lt_add_of_pos_left _ hpos).le
  | claimed hclaimed => exact absurd hclaimed hstatus

/-- What holds of the guarantees in every run. -/
structure Guaranteed (h : GuaranteeHistory) (s : GuaranteeStore) : Prop where
  wellFormed : ∀ b, WellFormed (s.core.records b)
  recorded : ∀ id, Recorded (s.guarantees.guarantorRecord id) (locks id h)

section

variable {h : GuaranteeHistory} {s : Situated World GuaranteeStore} {signers : List Address} {op : GuaranteeOp}
  {t : GuaranteeStore} {id : Nat}

theorem locks_call (he : guarantors.exec s signers op = some t) (id : Nat) :
    locks id ((s, .call signers op) :: h) = locksAfter id s op t (locks id h) := Component.replay_call he _ _ h

theorem locks_idle {e : Event World (List Address) GuaranteeStore GuaranteeOp} (hnone : guarantors.done s e = none)
    (id : Nat) : locks id ((s, e) :: h) = locks id h := Component.replay_idle hnone _ _ h

theorem locksAfter_request {guarantor : Address} {amount : Int} {token : Address} (ks : List Lock)
    (hin : t.balance token s.world.contract = s.store.balance token s.world.contract + amount) :
    locksAfter id s (.requestGuarantorForLoan id guarantor amount token) t ks = ⟨amount, 0⟩ :: ks := by
  rw [locksAfter, if_pos rfl, hin, add_sub_cancel_left]

theorem locksAfter_pay (hop : op = .releaseGuarantor id ∨ op = .claimGuarantorCoverage id) {paid : Int} (ks : List Lock)
    (hout : t.outflow s.world.contract = s.store.outflow s.world.contract + paid) :
    locksAfter id s op t ks = payLock paid ks := by
  rcases hop with rfl | rfl
  · rw [locksAfter, if_pos rfl, hout, add_sub_cancel_left]
  · rw [locksAfter, if_pos rfl, hout, add_sub_cancel_left]

/-- The loan a call on a guarantee is about. -/
def GuaranteeOp.loan : GuaranteeOp → Option Nat
  | .requestGuarantorForLoan id _ _ _ | .releaseGuarantor id | .claimGuarantorCoverage id => some id
  | .core _ => none

theorem locksAfter_other (hne : op.loan ≠ some id) (ks : List Lock) : locksAfter id s op t ks = ks := by
  cases op with
  | requestGuarantorForLoan => exact if_neg fun h => hne (congrArg some h)
  | releaseGuarantor => exact if_neg fun h => hne (congrArg some h)
  | claimGuarantorCoverage => exact if_neg fun h => hne (congrArg some h)
  | core => rfl

theorem update_other {β : Type} {f : Nat → Option β} {id id' : Nat} {x : Option β} (hne : some id' ≠ some id) :
    update f id' x id = f id := update_of_ne (fun h => hne (congrArg some h.symm)) x f

/-- A call on another loan, or on none. -/
theorem record_other (he : GuaranteeEffect s.world s.store t op) (hne : op.loan ≠ some id) :
    t.guarantees.guarantorRecord id = s.store.guarantees.guarantorRecord id := by
  cases he with
  | requested record _ _ _ hrecord =>
    rw [hrecord]
    exact update_other hne
  | released _ _ hrecord =>
    rw [hrecord]
    exact update_other hne
  | claimed _ _ hrecord =>
    rw [hrecord]
    exact update_other hne
  | core hsame => rw [hsame]

theorem guaranteed_call (hi : Guaranteed h s.store) (he : guarantors.exec s signers op = some t) :
    Guaranteed ((s, .call signers op) :: h) t := by
  have heffect := guaranteeEffect_of he
  refine ⟨?_, fun id => ?_⟩
  · cases heffect with
    | requested record _ _ _ _ hvouches => exact hvouches ▸ hi.wellFormed
    | released _ _ _ hvouches => exact hvouches ▸ hi.wellFormed
    | claimed _ _ _ hvouches => exact hvouches ▸ hi.wellFormed
    | core _ hvouch => exact hvouch.wellFormed hi.wellFormed
  rw [locks_call he]
  by_cases hop : op.loan = some id
  swap
  · rw [locksAfter_other hop, record_other heffect hop]
    exact hi.recorded id
  have hnow := hi.recorded id
  cases heffect with
  | @requested id' guarantor amount token record hamount hactive hpos hrecord hvouches hin =>
    obtain rfl : id' = id := Option.some.inj hop
    rw [locksAfter_request _ hin, hrecord, update_self]
    exact .held hactive hamount.symm hpos rfl
  | @released id' record hstored hactive hrecord hvouches hout =>
    obtain rfl : id' = id := Option.some.inj hop
    rw [locksAfter_pay (.inl rfl) _ hout, hrecord, update_self]
    rw [hstored] at hnow
    exact hnow.release hactive _
  | @claimed id' record hstored hstatus hrecord hvouches hout =>
    obtain rfl : id' = id := Option.some.inj hop
    rw [hstored] at hnow
    rw [locksAfter_pay (.inr rfl) _ (hout hi.wellFormed hnow.amount_pos.le), hrecord, update_self]
    exact hnow.claim hstatus
  | core => cases hop

/-! ## What keeps the custody -/

/-- A new lock replaces one that has left exactly if no active guarantee is stored. -/
theorem Recorded.replaced_iff {stored : Option GuarantorRecord} {ks : List Lock} (hr : Recorded stored ks)
    (hkept : LocksKept ks) :
    (∀ k ∈ ks, k.left = k.amount) ↔ ∀ record ∈ stored, record.status ≠ .active := by
  cases hr with
  | absent => exact iff_of_true (List.forall_mem_nil _) fun _ hnone => by cases hnone
  | held hactive _ hpos hleft =>
    refine iff_of_false (fun hall => ?_) fun hnone => hnone _ rfl hactive
    have hzero := hall _ List.mem_cons_self
    omega
  | released hstatus _ _ hleft =>
    refine iff_of_true (List.forall_mem_cons.2 ⟨hleft, (locksKept_cons.1 hkept).2⟩) ?_
    rintro record ⟨⟩ hactive
    cases hstatus.symm.trans hactive
  | claimed hstatus _ _ hleft =>
    obtain ⟨honce, hreplaced⟩ := locksKept_cons.1 hkept
    refine iff_of_true (List.forall_mem_cons.2 ⟨le_antisymm honce hleft, hreplaced⟩) ?_
    rintro record ⟨⟩ hactive
    cases hstatus.symm.trans hactive

/-- Paying a guarantee that is not claimed keeps the locks exactly if it is active. -/
theorem Recorded.pay_kept_iff {record : GuarantorRecord} {ks : List Lock} (hr : Recorded (some record) ks)
    (hkept : LocksKept ks) (hstatus : record.status ≠ .claimed) :
    LocksKept (payLock record.guaranteeAmount ks) ↔ record.status = .active := by
  cases hr with
  | held hactive hamount _ hleft =>
    refine iff_of_true (locksKept_cons.2 ⟨?_, (locksKept_cons.1 hkept).2⟩) hactive
    rw [hleft, zero_add]
    exact hamount.ge
  | @released _ k _ hreleased hamount hpos hleft =>
    refine iff_of_false (fun hpaid => ?_) fun hactive => by cases hreleased.symm.trans hactive
    have htwice : k.left + record.guaranteeAmount ≤ k.amount := (locksKept_cons.1 hpaid).1
    omega
  | claimed hclaimed => exact absurd hclaimed hstatus

/-- While the guarantee is active its loan is bound exactly if it is Active or Defaulted. -/
theorem not_bound_iff {s : GuaranteeStore} {record : GuarantorRecord}
    (hstored : s.guarantees.guarantorRecord id = some record) (hactive : record.status = .active) :
    ¬ s.Bound id ↔ ∀ loan ∈ s.core.book.loan id, loan.status ≠ .active ∧ loan.status ≠ .defaulted := by
  have hunclaimed : ∀ record ∈ s.guarantees.guarantorRecord id, record.status ≠ .claimed := by
    intro record' hrecord' hclaimed
    cases hstored.symm.trans hrecord'
    cases hactive.symm.trans hclaimed
  constructor
  · intro hfree loan hloan
    exact ⟨fun h => hfree ⟨loan, hloan, .inl h⟩, fun h => hfree ⟨loan, hloan, .inr ⟨h, hunclaimed⟩⟩⟩
  · rintro hnone ⟨loan, hloan, hstatus⟩
    rcases hstatus with h | ⟨h, -⟩
    · exact (hnone loan hloan).1 h
    · exact (hnone loan hloan).2 h

theorem custody_after_iff (hc : Custody h s) (he : guarantors.exec s signers op = some t) :
    Custody ((s, .call signers op) :: h) ⟨s.world, t⟩ ↔
      (∀ id, op.loan = some id → LocksKept (locksAfter id s op t (locks id h))) ∧ ReleasesFree s op := by
  have halong : Along (guarantors.WhenDone ReleasesFree) ((s, .call signers op) :: h) ↔ ReleasesFree s op := by
    constructor
    · intro hall
      exact hall _ List.mem_cons_self _ (Component.done_call he)
    · intro hfree
      exact List.forall_mem_cons.2 ⟨Component.whenDone_call hfree signers, hc.2⟩
  have hlocks : (∀ id, LocksKept (locks id ((s, .call signers op) :: h))) ↔
      ∀ id, op.loan = some id → LocksKept (locksAfter id s op t (locks id h)) := by
    constructor
    · intro hall id _
      rw [← locks_call he]
      exact hall id
    · intro hown id
      rw [locks_call he]
      by_cases hop : op.loan = some id
      · exact hown id hop
      · rw [locksAfter_other hop]
        exact hc.1 id
  exact and_congr hlocks halong

/-- A call that goes through keeps the custody exactly if it finds what it must. -/
theorem custody_call (hi : Guaranteed h s.store) (hc : Custody h s) (he : guarantors.exec s signers op = some t) :
    Custody ((s, .call signers op) :: h) ⟨s.world, t⟩ ↔ KeepsCustody s op := by
  rw [custody_after_iff hc he]
  cases guaranteeEffect_of he with
  | @requested id guarantor amount token record _ _ hpos _ _ hin =>
    have hreplaced := (hi.recorded id).replaced_iff (hc.1 id)
    constructor
    · rintro ⟨hown, -⟩
      have hkept := hown id rfl
      rw [locksAfter_request _ hin] at hkept
      exact hreplaced.1 (locksKept_cons.1 hkept).2
    · intro hnone
      refine ⟨?_, trivial⟩
      rintro id' ⟨⟩
      rw [locksAfter_request _ hin]
      exact locksKept_cons.2 ⟨hpos.le, hreplaced.2 hnone⟩
  | @released id record hstored hactive _ _ hout =>
    have hrecorded := hi.recorded id
    rw [hstored] at hrecorded
    have hunclaimed : record.status ≠ .claimed := by
      rw [hactive]
      decide
    rw [show ReleasesFree s (.releaseGuarantor id) ↔ _ from not_bound_iff hstored hactive]
    refine ⟨fun hall => hall.2, fun hfree => ⟨?_, hfree⟩⟩
    rintro id' ⟨⟩
    rw [locksAfter_pay (.inl rfl) _ hout]
    exact (hrecorded.pay_kept_iff (hc.1 id) hunclaimed).2 hactive
  | @claimed id record hstored hstatus _ _ hout =>
    have hrecorded := hi.recorded id
    rw [hstored] at hrecorded
    have hpaid := hout hi.wellFormed hrecorded.amount_pos.le
    have hkept := hrecorded.pay_kept_iff (hc.1 id) hstatus
    constructor
    · rintro ⟨hown, -⟩ record' hrecord'
      cases hstored.symm.trans hrecord'
      have hafter := hown id rfl
      rw [locksAfter_pay (.inr rfl) _ hpaid] at hafter
      exact hkept.1 hafter
    · intro hactive
      refine ⟨?_, trivial⟩
      rintro id' ⟨⟩
      rw [locksAfter_pay (.inr rfl) _ hpaid]
      exact hkept.2 (hactive record hstored)
  | core => exact iff_of_true ⟨fun id hop => (by cases hop), trivial⟩ trivial

end

/-! ## Runs -/

section

variable {world : World} {bank : Ledger} {h : GuaranteeHistory} {s : Situated World GuaranteeStore}

theorem guaranteed_run (hr : Run guarantors.Step (guaranteeStart world bank) h s) : Guaranteed h s.store := by
  refine Component.inv (I := fun h s => Guaranteed h s.store) ?_ (fun _ hi he => guaranteed_call hi he) ?_ hr
  · exact ⟨fun _ => .nil, fun _ => .absent⟩
  · intro h s e s' hi hnone hsame
    rcases hsame with rfl | ⟨-, -, hguarantees, hformed⟩
    · refine ⟨hi.wellFormed, fun id => ?_⟩
      rw [locks_idle hnone]
      exact hi.recorded id
    · refine ⟨hformed hi.wellFormed, fun id => ?_⟩
      rw [locks_idle hnone, hguarantees]
      exact hi.recorded id

/-- In every run, with whatever calls on the loans, the custody of the guarantees is kept
throughout exactly if every request finds no active guarantee, every release a loan neither
Active nor Defaulted, and every claim an active guarantee. -/
theorem guarantee_custody_iff (hr : Run guarantors.Step (guaranteeStart world bank) h s) :
    Always Custody h s ↔ Along (guarantors.WhenDone KeepsCustody) h := by
  rw [along_iff_throughout]
  refine Component.always_iff ?_ (fun hr hc he => custody_call (guaranteed_run hr) hc he) ?_ hr
  · exact ⟨fun _ => ⟨List.forall_mem_nil _, List.forall_mem_nil _⟩, List.forall_mem_nil _⟩
  · intro h s e s' hc hnone _
    refine ⟨fun id => ?_, List.forall_mem_cons.2 ⟨?_, hc.2⟩⟩
    · rw [locks_idle hnone]
      exact hc.1 id
    · intro d hd
      rw [hnone] at hd
      cases hd

end

/-- Four months later, when the loan is overdue. -/
def muchLater (s : Situated World GuaranteeStore) : Situated World GuaranteeStore :=
  ⟨{ s.world with now := s.world.now + 10000000 }, s.store⟩

theorem run_muchLater {s₀ s : Situated World GuaranteeStore} {h : GuaranteeHistory} (hr : Run guarantors.Step s₀ h s) :
    Run guarantors.Step s₀ ((s, .elsewhere (muchLater s).world s.store) :: h) (muchLater s) :=
  hr.snoc (.elsewhere ⟨Nat.le_add_right _ _, rfl, rfl, id⟩)

/-- Account 5 stands for the loan of account 10. -/
def guaranteedLoan : List (List Address × GuaranteeOp) :=
  [([2], .core (.vouch 2 10 1000000 100 0)), ([1], .core (.createLoanPool [1] [10] [500000])),
    ([5], .requestGuarantorForLoan 1 5 200000 100)]

/-- The loan is found to be Defaulted, and the coverage claimed. -/
def coverageClaimed : List (List Address × GuaranteeOp) :=
  [([], .core (.getLoan 10)), ([], .claimGuarantorCoverage 1)]

theorem guarantee_custody_claimed :
    ∃ h s, Run guarantors.Step (guaranteeStart sampleWorld sampleBank) h s ∧ Custody h s ∧
      locks 1 h = [⟨200000, 200000⟩] := by
  have hr := guarantors.run_play (.nil : Run _ (guaranteeStart sampleWorld sampleBank) [] _) guaranteedLoan
  have hlater := guarantors.run_play (run_muchLater hr) coverageClaimed
  have halways := (guarantee_custody_iff hlater).2 (by decide +kernel)
  exact ⟨_, _, hlater, halways.last, by decide +kernel⟩

/-- The guarantee is released while the loan is Active, and its coverage paid all the same. -/
theorem guarantee_custody_broken :
    ¬ ∀ world bank h s, Run guarantors.Step (guaranteeStart world bank) h s → Always Custody h s := by
  intro hclaim
  have hr := guarantors.run_play (.nil : Run _ (guaranteeStart sampleWorld sampleBank) [] _)
    (guaranteedLoan ++ [([], .releaseGuarantor 1)])
  have hlater := guarantors.run_play (run_muchLater hr) coverageClaimed
  obtain ⟨hkept, -⟩ := (hclaim _ _ _ _ hlater).last
  exact absurd (hkept 1) (by decide +kernel)

end QuorumCredit
