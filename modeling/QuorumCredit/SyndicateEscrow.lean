import QuorumCredit.Syndicates
/-!
# The escrow of a syndicate

What the members put in comes back when they leave and when the syndicate is
cancelled. After a repayment in full and after a default nothing pays it out: the
escrow is settled there only if the loss takes all of it.
-/

open Host Function

namespace QuorumCredit

/-! ## Sums over the members of one address -/

def sumAt (f : SyndicationMember → Int) (members : List SyndicationMember) (a : Address) : Int :=
  (members.map fun m => if m.address = a then f m else 0).sum

theorem sumAt_cons (f : SyndicationMember → Int) (m : SyndicationMember) (ms : List SyndicationMember) (a : Address) :
    sumAt f (m :: ms) a = (if m.address = a then f m else 0) + sumAt f ms a :=
  List.sum_cons

theorem sumAt_append (f : SyndicationMember → Int) (ms ms' : List SyndicationMember) (a : Address) :
    sumAt f (ms ++ ms') a = sumAt f ms a + sumAt f ms' a := by
  rw [sumAt, List.map_append, List.sum_append]
  rfl

variable {members : List SyndicationMember}

theorem sumAt_eq_zero (f : SyndicationMember → Int) {a : Address} (hnone : a ∉ members.map (·.address)) :
    sumAt f members a = 0 := by
  induction members with
  | nil => rfl
  | cons m ms ih =>
    rw [List.map_cons, List.mem_cons, not_or] at hnone
    rw [sumAt_cons, if_neg (Ne.symm hnone.1), ih hnone.2, add_zero]

/-- Where the addresses are distinct, the sum is the one member's. -/
theorem sumAt_of_mem (f : SyndicationMember → Int) (hdistinct : (members.map (·.address)).Nodup)
    {m : SyndicationMember} (hm : m ∈ members) : sumAt f members m.address = f m := by
  induction members with
  | nil => cases hm
  | cons m' ms ih =>
    rw [List.map_cons, List.nodup_cons] at hdistinct
    rw [sumAt_cons]
    rcases List.mem_cons.1 hm with rfl | hm
    · rw [if_pos rfl, sumAt_eq_zero f hdistinct.1, add_zero]
    · have hne : m'.address ≠ m.address := by
        intro heq
        rw [heq] at hdistinct
        exact hdistinct.1 (List.mem_map_of_mem hm)
      rw [if_neg hne, ih hdistinct.2 hm, zero_add]

theorem forall_sumAt_iff (f g : SyndicationMember → Int) (hdistinct : (members.map (·.address)).Nodup) :
    (∀ a, sumAt f members a = sumAt g members a) ↔ ∀ m ∈ members, f m = g m := by
  constructor
  · intro h m hm
    rw [← sumAt_of_mem f hdistinct hm, h, sumAt_of_mem g hdistinct hm]
  · intro h a
    refine congrArg List.sum (List.map_congr_left fun m hm => ?_)
    rw [h m hm]

/-! ## What was escrowed, paid back and lost -/

def stakeAt (y : LoanSyndication) (a : Address) : Int := sumAt (·.stake) y.members a

/-- The loss a default assigns to the member. -/
def SyndicationMember.lossOf (m : SyndicationMember) (shortfall totalStake : Int) : Int :=
  if 0 < m.stake then m.loss shortfall totalStake else 0

def Syndications.shortfall (g : Syndications) (y : LoanSyndication) (id : Nat) : Int :=
  satI128 (y.totalAmount - g.totalRepaid id)

def Syndications.tokenOf (g : Syndications) (id : Nat) : Address :=
  ((g.loanSyndication id).map (·.tokenAddress)).getD 0

/-- What the transfers between the two states move from `src` to `dst`. -/
def movedBy (s t : SyndicationStore) (token src dst : Address) : Int :=
  Bank.sent t.bank.log token src dst - Bank.sent s.bank.log token src dst

/-- What a join takes from the account. -/
def escrowedBy (id : Nat) (a : Address) (s : Situated World SyndicationStore) (op : SyndicationOp)
    (t : SyndicationStore) : Int :=
  match op with
  | .joinSyndication id' .. =>
    if id' = id then movedBy s.store t (s.store.syndications.tokenOf id) a s.world.contract else 0
  | _ => 0

/-- What a departure or a cancellation pays the account. -/
def paidBackBy (id : Nat) (a : Address) (s : Situated World SyndicationStore) (op : SyndicationOp)
    (t : SyndicationStore) : Int :=
  match op with
  | .leaveSyndication id' _ | .cancelSyndication id' _ =>
    if id' = id then movedBy s.store t (s.store.syndications.tokenOf id) s.world.contract a else 0
  | _ => 0

/-- The loss a default assigns to the account. -/
def lostBy (id : Nat) (a : Address) (s : Situated World SyndicationStore) (op : SyndicationOp)
    (_ : SyndicationStore) : Int :=
  match op with
  | .handleSyndicationDefault id' _ =>
    if id' = id then
      match s.store.syndications.loanSyndication id with
      | some y => sumAt (·.lossOf (s.store.syndications.shortfall y id) y.committedStake) y.members a
      | none => 0
    else 0
  | _ => 0

def escrowed (id : Nat) (a : Address) : SyndicationHistory → Int := syndicates.tally (escrowedBy id a)
def paidBack (id : Nat) (a : Address) : SyndicationHistory → Int := syndicates.tally (paidBackBy id a)
def lost (id : Nat) (a : Address) : SyndicationHistory → Int := syndicates.tally (lostBy id a)

/-- Repaid, cancelled or defaulted. -/
def LoanSyndication.Final (y : LoanSyndication) : Prop :=
  y.status = .repaid ∨ y.status = .cancelled ∨ y.status = .defaulted

instance (y : LoanSyndication) : Decidable y.Final := inferInstanceAs (Decidable (_ ∨ _))

def SyndicationOp.syndicate : SyndicationOp → Option Nat
  | .createSyndication .. => none
  | .joinSyndication id .. | .approveSyndication id _ | .leaveSyndication id _ | .cancelSyndication id _
  | .requestSyndicationLoan id _ | .repaySyndicationLoan id .. | .handleSyndicationDefault id _ => some id

/-- A call for the syndicate goes through that pays the account `x`. -/
def Withdraws (s : Situated World SyndicationStore) (id : Nat) (a : Address) (x : Int) : Prop :=
  ∃ signers op t, op.syndicate = some id ∧ syndicates.exec s signers op = some t ∧
    movedBy s.store t (s.store.syndications.tokenOf id) s.world.contract a = x

/-- In a final state, what was paid back and can still be withdrawn is what was
escrowed less the loss. -/
def EscrowSettled (h : SyndicationHistory) (s : Situated World SyndicationStore) : Prop :=
  ∀ id y, s.store.syndications.loanSyndication id = some y → y.Final → ∀ a, ∃ x, (x = 0 ∨ Withdraws s id a x) ∧
    paidBack id a h + x = escrowed id a h - lost id a h

/-- A cancellation sees the stake in the totals, no repayment completes the loan, and
a default finds nothing of the whole stake covered. -/
def KeepsEscrow (s : Situated World SyndicationStore) : SyndicationOp → Prop
  | .cancelSyndication id _ => ∀ y ∈ s.store.syndications.loanSyndication id,
    0 < satI128 (y.totalCollateral + y.totalVouchStake) ∨ ∀ m ∈ y.members, m.stake = 0
  | .repaySyndicationLoan id _ amount => ∀ y ∈ s.store.syndications.loanSyndication id,
    satI128 (s.store.syndications.totalRepaid id + amount) < y.totalAmount
  | .handleSyndicationDefault id _ => ∀ y ∈ s.store.syndications.loanSyndication id,
    y.committedStake ≤ s.store.syndications.shortfall y id ∧ ∀ m ∈ y.members, m.stake * y.committedStake ≤ i128Max
  | _ => True

instance (s : Situated World SyndicationStore) (op : SyndicationOp) : Decidable (KeepsEscrow s op) := by
  unfold KeepsEscrow
  split <;> infer_instance

/-! ## Amounts -/

section

variable {y : LoanSyndication} {cfg : SyndicationConfig}

theorem LoanSyndication.Formed.stake_nonneg (h : y.Formed cfg) {m : SyndicationMember} (hm : m ∈ y.members) :
    0 ≤ m.stake :=
  SyndicationMember.stake_nonneg (h.nonneg m hm)

theorem committedStake_eq (h : ∀ m ∈ y.members, 0 ≤ m.collateral ∧ 0 ≤ m.vouchStake) :
    y.committedStake = satI128 (y.members.map fun m => m.collateral + m.vouchStake).sum := by
  have hfold := foldl_satI128 (fun m : SyndicationMember => m.collateral + m.vouchStake)
    (fun m hm => (by have hm' := h m hm; omega : 0 ≤ m.collateral + m.vouchStake)) le_rfl
  rw [zero_add] at hfold
  rw [← hfold, LoanSyndication.committedStake]
  suffices hsteps : ∀ (ms : List SyndicationMember) (acc : Int), (∀ m ∈ ms, 0 ≤ m.collateral ∧ 0 ≤ m.vouchStake) →
      0 ≤ acc → ms.foldl (fun acc m => satI128 (satI128 (acc + m.collateral) + m.vouchStake)) acc =
        ms.foldl (fun acc m => satI128 (acc + (m.collateral + m.vouchStake))) acc from
    hsteps y.members 0 h le_rfl
  intro ms
  induction ms with
  | nil => exact fun _ _ _ => rfl
  | cons m ms ih =>
    intro acc hms hacc
    obtain ⟨hm, hms⟩ := List.forall_mem_cons.1 hms
    rw [List.foldl_cons, List.foldl_cons, satI128_add_satI128 (by omega) hm.2, add_assoc]
    exact ih _ hms (satI128_nonneg (by omega))

/-- Where something is committed, some member has a stake. -/
theorem exists_stake (h : y.Formed cfg) (hpos : 0 < y.committedStake) : ∃ m ∈ y.members, 0 < m.stake := by
  by_contra hnone
  have hzero : ∀ x ∈ y.members.map fun m => m.collateral + m.vouchStake, x = 0 := by
    refine List.forall_mem_map.2 fun m hm => ?_
    have hle : ¬ 0 < m.stake := fun hstake => hnone ⟨m, hm, hstake⟩
    have hm' := h.nonneg m hm
    rw [SyndicationMember.stake, satI128_of_nonneg (by omega)] at hle
    unfold i128Max at hle
    omega
  rw [committedStake_eq h.nonneg, List.sum_eq_zero hzero] at hpos
  exact absurd hpos (by decide)

theorem loss_eq_stake_iff {m : SyndicationMember} {shortfall totalStake : Int} (hstake : 0 < m.stake)
    (hshort : 0 < shortfall) (htotal : 0 < totalStake) :
    m.loss shortfall totalStake = m.stake ↔ totalStake ≤ shortfall ∧ m.stake * totalStake ≤ i128Max := by
  have hproduct : 0 ≤ shortfall * m.stake := Int.mul_nonneg hshort.le hstake.le
  have hsat : 0 ≤ satI128 (shortfall * m.stake) := satI128_nonneg hproduct
  have hiff : m.loss shortfall totalStake = m.stake ↔ m.stake * totalStake ≤ satI128 (shortfall * m.stake) := by
    rw [SyndicationMember.loss, Int.tdiv_eq_ediv_of_nonneg hsat, ← Int.le_ediv_iff_mul_le htotal]
    omega
  rw [hiff, satI128_of_nonneg hproduct, le_min_iff, Int.mul_comm shortfall, and_comm]
  exact and_congr_left fun _ => mul_le_mul_iff_right₀ hstake

/-- A default takes every stake exactly if the shortfall is as large as all of them. -/
theorem losses_iff (h : y.Formed cfg) {shortfall : Int} (hshort : 0 < shortfall) (hpos : 0 < y.committedStake) :
    (∀ m ∈ y.members, m.stake = m.lossOf shortfall y.committedStake) ↔
      y.committedStake ≤ shortfall ∧ ∀ m ∈ y.members, m.stake * y.committedStake ≤ i128Max := by
  constructor
  · intro hall
    obtain ⟨m, hm, hstake⟩ := exists_stake h hpos
    have hone : ∀ m ∈ y.members, 0 < m.stake →
        y.committedStake ≤ shortfall ∧ m.stake * y.committedStake ≤ i128Max := by
      intro m hm hstake
      have hloss := hall m hm
      rw [SyndicationMember.lossOf, if_pos hstake] at hloss
      exact (loss_eq_stake_iff hstake hshort hpos).1 hloss.symm
    refine ⟨(hone m hm hstake).1, fun m' hm' => ?_⟩
    by_cases hstake' : 0 < m'.stake
    · exact (hone m' hm' hstake').2
    · have hzero : m'.stake = 0 := le_antisymm (not_lt.1 hstake') (h.stake_nonneg hm')
      rw [hzero, zero_mul]
      decide
  · rintro ⟨hle, hfits⟩ m hm
    rw [SyndicationMember.lossOf]
    split
    case isTrue hstake => exact ((loss_eq_stake_iff hstake hshort hpos).2 ⟨hle, hfits m hm⟩).symm
    case isFalse hstake => exact le_antisymm (not_lt.1 hstake) (h.stake_nonneg hm)

end

theorem totalRepaid_add (g : Syndications) (id : Nat) (r : SyndicationRepayment) :
    (g.addRepayment id r).totalRepaid id = satI128 (g.totalRepaid id + r.amount) := by
  unfold Syndications.totalRepaid Syndications.addRepayment
  simp only [update_self]
  rw [List.range_succ, List.foldl_append, List.foldl_cons, List.foldl_nil, update_self]
  dsimp only
  congr 2
  refine List.foldl_ext _ _ _ fun total i hi => ?_
  have hne : i + 1 ≠ g.syndicationRepaymentCounter id + 1 := by
    have hlt := List.mem_range.1 hi
    omega
  rw [update_of_ne hne]

/-! ## What a call moves -/

theorem sent_transferOf (token src dst src' dst' : Address) {amount : Int} (h : 0 ≤ amount) :
    Bank.sent (transferOf token src dst amount) token src' dst' = if src = src' ∧ dst = dst' then amount else 0 := by
  unfold transferOf
  by_cases hpos : 0 < amount
  · rw [if_pos hpos, Bank.sent, Bank.sent]
    simp
  · rw [if_neg hpos, le_antisymm (not_lt.1 hpos) h]
    simp [Bank.sent]

theorem sent_refunds (token contract : Address) (h : ∀ m ∈ members, 0 ≤ m.stake) (a : Address) :
    Bank.sent (refunds token contract members) token contract a = sumAt (·.stake) members a := by
  induction members with
  | nil => rfl
  | cons m ms ih =>
    obtain ⟨hm, hms⟩ := List.forall_mem_cons.1 h
    have hrest := ih hms
    unfold refunds at hrest ⊢
    rw [List.flatMap_cons, Bank.sent_append, hrest, sumAt_cons, sent_transferOf _ _ _ _ _ hm]
    simp

theorem movedBy_moves {s t : SyndicationStore} {ts : List (Transfer Address Address)} (hbank : t.bank = s.bank.moves ts)
    (token src dst : Address) : movedBy s t token src dst = Bank.sent ts token src dst := by
  rw [movedBy, hbank, Bank.sent_moves]
  omega

section

variable {s : Situated World SyndicationStore} {signers : List Address} {op : SyndicationOp} {t : SyndicationStore}
  {id : Nat} {h : SyndicationHistory}

theorem tokenOf_stored {g : Syndications} {y : LoanSyndication} (hy : g.loanSyndication id = some y) :
    g.tokenOf id = y.tokenAddress := by
  rw [Syndications.tokenOf, hy]
  rfl

/-- A call for another syndicate moves nothing of this one. -/
theorem by_other (hop : op.syndicate ≠ some id) (a : Address) :
    escrowedBy id a s op t = 0 ∧ paidBackBy id a s op t = 0 ∧ lostBy id a s op t = 0 := by
  cases op with
  | createSyndication => exact ⟨rfl, rfl, rfl⟩
  | joinSyndication id' =>
    have hne : id' ≠ id := fun heq => hop (congrArg some heq)
    exact ⟨if_neg hne, rfl, rfl⟩
  | leaveSyndication id' =>
    have hne : id' ≠ id := fun heq => hop (congrArg some heq)
    exact ⟨rfl, if_neg hne, rfl⟩
  | cancelSyndication id' =>
    have hne : id' ≠ id := fun heq => hop (congrArg some heq)
    exact ⟨rfl, if_neg hne, rfl⟩
  | handleSyndicationDefault id' =>
    have hne : id' ≠ id := fun heq => hop (congrArg some heq)
    exact ⟨rfl, rfl, if_neg hne⟩
  | approveSyndication => exact ⟨rfl, rfl, rfl⟩
  | requestSyndicationLoan => exact ⟨rfl, rfl, rfl⟩
  | repaySyndicationLoan => exact ⟨rfl, rfl, rfl⟩

theorem tallies_other (he : syndicates.exec s signers op = some t) (hop : op.syndicate ≠ some id) (a : Address) :
    escrowed id a ((s, .call signers op) :: h) = escrowed id a h ∧
      paidBack id a ((s, .call signers op) :: h) = paidBack id a h ∧
        lost id a ((s, .call signers op) :: h) = lost id a h := by
  obtain ⟨hin, hout, hloss⟩ := by_other (s := s) (t := t) hop a
  rw [escrowed, paidBack, lost, Component.tally_call he, Component.tally_call he, Component.tally_call he, hin, hout,
    hloss, add_zero, add_zero, add_zero]
  exact ⟨rfl, rfl, rfl⟩

theorem tallies_call (he : syndicates.exec s signers op = some t) (id : Nat) (a : Address) :
    escrowed id a ((s, .call signers op) :: h) = escrowed id a h + escrowedBy id a s op t ∧
      paidBack id a ((s, .call signers op) :: h) = paidBack id a h + paidBackBy id a s op t ∧
        lost id a ((s, .call signers op) :: h) = lost id a h + lostBy id a s op t :=
  ⟨Component.tally_call he _ _, Component.tally_call he _ _, Component.tally_call he _ _⟩

end

/-! ## What is held -/

/-- Until the end the members hold what they escrowed and were not paid back; an
active loan is covered. -/
structure Escrow (h : SyndicationHistory) (g : Syndications) : Prop where
  fresh : ∀ id, g.syndicationCounter < id → g.loanSyndication id = none
  none : ∀ id a, g.loanSyndication id = none → escrowed id a h = 0 ∧ paidBack id a h = 0 ∧ lost id a h = 0
  held : ∀ id y, g.loanSyndication id = some y → ¬ y.Final → ∀ a,
    escrowed id a h = paidBack id a h + stakeAt y a ∧ lost id a h = 0
  amount : ∀ id y, g.loanSyndication id = some y → 0 < y.totalAmount
  covered : ∀ id y, g.loanSyndication id = some y → y.status = .active → y.totalAmount ≤ y.committedStake

section

variable {s : Situated World SyndicationStore} {signers : List Address} {op : SyndicationOp} {t : SyndicationStore}
  {id : Nat} {h : SyndicationHistory}

variable {y' y : LoanSyndication} {cfg : SyndicationConfig}

theorem stored_cases {g g' : Syndications} (hsaved : g'.loanSyndication = update g.loanSyndication id (some y'))
    {id₁ : Nat} {y₁ : LoanSyndication} (hy₁ : g'.loanSyndication id₁ = some y₁) :
    (id₁ = id ∧ y₁ = y') ∨ (id₁ ≠ id ∧ g.loanSyndication id₁ = some y₁) := by
  rw [hsaved, update_apply] at hy₁
  split at hy₁
  case isTrue heq => exact .inl ⟨heq, (Option.some.inj hy₁).symm⟩
  case isFalse hne => exact .inr ⟨hne, hy₁⟩

theorem stored_none {g g' : Syndications} (hsaved : g'.loanSyndication = update g.loanSyndication id (some y'))
    {id₁ : Nat} (hnone : g'.loanSyndication id₁ = none) : id₁ ≠ id ∧ g.loanSyndication id₁ = none := by
  rw [hsaved, update_apply] at hnone
  split at hnone
  case isTrue => cases hnone
  case isFalse hne => exact ⟨hne, hnone⟩

theorem other_of_ne (hop : op.syndicate = some id) {id' : Nat} (hne : id' ≠ id) : op.syndicate ≠ some id' := by
  intro heq
  rw [hop] at heq
  exact hne (Option.some.inj heq).symm

/-- A call that replaces the record of its syndicate. -/
theorem escrow_save (hi : Escrow h s.store.syndications) (he : syndicates.exec s signers op = some t)
    (hop : op.syndicate = some id) (hy : s.store.syndications.loanSyndication id = some y)
    (hsaved : t.syndications.loanSyndication = update s.store.syndications.loanSyndication id (some y'))
    (hcounter : t.syndications.syndicationCounter = s.store.syndications.syndicationCounter)
    (hheld : ¬ y'.Final → ∀ a, escrowed id a h + escrowedBy id a s op t = paidBack id a h + paidBackBy id a s op t + stakeAt y' a ∧ lost id a h + lostBy id a s op t = 0)
    (hamount : y'.totalAmount = y.totalAmount) (hcovered : y'.status = .active → y'.totalAmount ≤ y'.committedStake) :
    Escrow ((s, .call signers op) :: h) t.syndications := by
  refine ⟨fun id' hlt => ?_, fun id' a hnone => ?_, fun id' y₁ hy₁ hopen a => ?_, fun id' y₁ hy₁ => ?_,
    fun id' y₁ hy₁ hactive => ?_⟩
  · rw [hcounter] at hlt
    have hnone := hi.fresh id' hlt
    have hne : id' ≠ id := by
      rintro rfl
      cases hy.symm.trans hnone
    rw [hsaved, update_of_ne hne]
    exact hnone
  · obtain ⟨hne, hnone⟩ := stored_none hsaved hnone
    obtain ⟨hin, hout, hloss⟩ := tallies_other (h := h) he (other_of_ne hop hne) a
    rw [hin, hout, hloss]
    exact hi.none id' a hnone
  · rcases stored_cases hsaved hy₁ with ⟨rfl, rfl⟩ | ⟨hne, hy₁⟩
    · obtain ⟨hin, hout, hloss⟩ := tallies_call (h := h) he id' a
      rw [hin, hout, hloss]
      exact hheld hopen a
    · obtain ⟨hin, hout, hloss⟩ := tallies_other (h := h) he (other_of_ne hop hne) a
      rw [hin, hout, hloss]
      exact hi.held id' y₁ hy₁ hopen a
  · rcases stored_cases hsaved hy₁ with ⟨rfl, rfl⟩ | ⟨-, hy₁⟩
    · rw [hamount]
      exact hi.amount id' y hy
    · exact hi.amount id' y₁ hy₁
  · rcases stored_cases hsaved hy₁ with ⟨rfl, rfl⟩ | ⟨-, hy₁⟩
    · exact hcovered hactive
    · exact hi.covered id' y₁ hy₁ hactive

/-- The next syndicate has moved nothing yet. -/
theorem escrow_create (hi : Escrow h s.store.syndications) (he : syndicates.exec s signers op = some t)
    (hop : op.syndicate = none) (hamount : 0 < y'.totalAmount) (hforming : y'.status = .forming)
    (hmembers : y'.members = [])
    (hcounter : t.syndications.syndicationCounter = s.store.syndications.syndicationCounter + 1)
    (hsaved : t.syndications.loanSyndication = update s.store.syndications.loanSyndication (s.store.syndications.syndicationCounter + 1) (some y')) :
    Escrow ((s, .call signers op) :: h) t.syndications := by
  have hnone : ∀ id, op.syndicate ≠ some id := by
    intro id heq
    cases hop.symm.trans heq
  have hother := fun id a => tallies_other (h := h) he (hnone id) a
  have hnew := hi.fresh (s.store.syndications.syndicationCounter + 1) (Nat.lt_succ_self _)
  refine ⟨fun id' hlt => ?_, fun id' a hnone => ?_, fun id' y₁ hy₁ hopen a => ?_, fun id' y₁ hy₁ => ?_,
    fun id' y₁ hy₁ hactive => ?_⟩
  · rw [hcounter] at hlt
    rw [hsaved, update_of_ne (Nat.ne_of_gt hlt)]
    exact hi.fresh id' (Nat.lt_of_succ_lt hlt)
  · obtain ⟨hin, hout, hloss⟩ := hother id' a
    rw [hin, hout, hloss]
    exact hi.none id' a (stored_none hsaved hnone).2
  · obtain ⟨hin, hout, hloss⟩ := hother id' a
    rw [hin, hout, hloss]
    rcases stored_cases hsaved hy₁ with ⟨rfl, rfl⟩ | ⟨-, hy₁⟩
    · obtain ⟨hin, hout, hloss⟩ := hi.none _ a hnew
      rw [hin, hout, hloss, stakeAt, hmembers]
      exact ⟨rfl, rfl⟩
    · exact hi.held id' y₁ hy₁ hopen a
  · rcases stored_cases hsaved hy₁ with ⟨rfl, rfl⟩ | ⟨-, hy₁⟩
    · exact hamount
    · exact hi.amount id' y₁ hy₁
  · rcases stored_cases hsaved hy₁ with ⟨rfl, rfl⟩ | ⟨-, hy₁⟩
    · rw [hforming] at hactive
      cases hactive
    · exact hi.covered id' y₁ hy₁ hactive

theorem not_final (h : y.status = .forming ∨ y.status = .ready ∨ y.status = .active) : ¬ y.Final := by
  rintro (hf | hf | hf)
  all_goals
    rw [hf] at h
    revert h
    decide

theorem stakeAt_joinedBy (y : LoanSyndication) (cfg : SyndicationConfig) (m : SyndicationMember) (a : Address) :
    stakeAt (y.joinedBy cfg m) a = stakeAt y a + if m.address = a then m.stake else 0 := by
  show sumAt (·.stake) (y.members ++ [m]) a = sumAt (·.stake) y.members a + _
  rw [sumAt_append, sumAt_cons, show sumAt (·.stake) [] a = 0 from rfl, add_zero]

theorem stakeAt_approvedBy {before after : List SyndicationMember} {m : SyndicationMember}
    (hmembers : y.members = before ++ m :: after) (a : Address) :
    stakeAt (y.approvedBy cfg before.length { m with approved := true }) a = stakeAt y a := by
  rw [stakeAt, stakeAt, members_approved hmembers, hmembers, sumAt_append, sumAt_append, sumAt_cons, sumAt_cons]
  rfl

theorem stakeAt_leftBy (cfg : SyndicationConfig) {before after : List SyndicationMember} {m : SyndicationMember}
    (hmembers : y.members = before ++ m :: after) (a : Address) :
    stakeAt y a = stakeAt (y.leftBy cfg before.length m) a + if m.address = a then m.stake else 0 := by
  rw [stakeAt, stakeAt, members_left hmembers, hmembers, sumAt_append, sumAt_append, sumAt_cons]
  omega

theorem update_stored {g : Syndications} (hy : g.loanSyndication id = some y) :
    g.loanSyndication = update g.loanSyndication id (some y) := by
  rw [← hy, update_eq_self]

/-- The storage after a call that saves one record. -/
theorem loan_of {b : Ledger} {g g₀ : Syndications} (ht : t = ⟨b, g₀.saveSyndication y'⟩)
    (hg₀ : g₀.loanSyndication = g.loanSyndication) (hid : y.syndicationId = id)
    (hsame : y'.syndicationId = y.syndicationId) :
    t.syndications.loanSyndication = update g.loanSyndication id (some y') := by
  rw [ht, ← hid, ← hsame, ← hg₀]
  rfl

theorem unmoved {x x' l k : Int} (h : x = x' + k ∧ l = 0) : x + 0 = x' + 0 + k ∧ l + 0 = 0 := by
  rw [add_zero, add_zero, add_zero]
  exact h

section

variable {y : LoanSyndication} (hy : s.store.syndications.loanSyndication id = some y)

include hy

theorem escrowedBy_join {member : Address} {role : SyndicationRole} {share : Nat} {c v x : Int}
    (hbank : t.bank = s.store.bank.moves (transferOf y.tokenAddress member s.world.contract x)) (hx : 0 ≤ x)
    (a : Address) :
    escrowedBy id a s (.joinSyndication id member role share c v) t = if member = a then x else 0 := by
  rw [escrowedBy, if_pos rfl, tokenOf_stored hy, movedBy_moves hbank, sent_transferOf _ _ _ _ _ hx]
  simp

theorem paidBackBy_leave {member : Address} {x : Int}
    (hbank : t.bank = s.store.bank.moves (transferOf y.tokenAddress s.world.contract member x)) (hx : 0 ≤ x)
    (a : Address) : paidBackBy id a s (.leaveSyndication id member) t = if member = a then x else 0 := by
  rw [paidBackBy, if_pos rfl, tokenOf_stored hy, movedBy_moves hbank, sent_transferOf _ _ _ _ _ hx]
  simp

theorem paidBackBy_cancel (caller : Address) {p : Prop} [Decidable p] (hstakes : ∀ m ∈ y.members, 0 ≤ m.stake)
    (hbank : t.bank = s.store.bank.moves (if p then refunds y.tokenAddress s.world.contract y.members else []))
    (a : Address) : paidBackBy id a s (.cancelSyndication id caller) t = if p then stakeAt y a else 0 := by
  rw [paidBackBy, if_pos rfl, tokenOf_stored hy, movedBy_moves hbank]
  split
  · exact sent_refunds _ _ hstakes a
  · rfl

theorem lostBy_default (caller a : Address) :
    lostBy id a s (.handleSyndicationDefault id caller) t =
      sumAt (·.lossOf (s.store.syndications.shortfall y id) y.committedStake) y.members a := by
  simp only [lostBy, if_pos, hy]

end

/-- What a call that goes through leaves held. -/
theorem escrow_call (hreg : s.store.syndications.Registered cfg) (hi : Escrow h s.store.syndications)
    (he : syndicates.exec s signers op = some t) : Escrow ((s, .call signers op) :: h) t.syndications := by
  cases syndicationEffect_of he with
  | created hpos ht =>
    exact escrow_create hi he rfl hpos rfl rfl (by rw [ht]; rfl) (loan_of ht rfl rfl rfl)
  | @joined id member role share c v y now _ hy hforming hc hv _ _ _ _ _ ht =>
    refine escrow_save hi he rfl hy (loan_of ht rfl (hreg.under hy) rfl) (by rw [ht]; rfl) (fun _ a => ?_) rfl
      (fun hactive => ?_)
    · obtain ⟨hheld, hlost⟩ := hi.held id y hy (not_final (.inl hforming)) a
      rw [escrowedBy_join hy (congrArg SyndicationStore.bank ht) (satI128_nonneg (by omega)), stakeAt_joinedBy, hheld,
        hlost]
      refine ⟨?_, rfl⟩
      show _ = _ + 0 + _
      rw [add_zero, add_assoc]
      rfl
    · cases hforming.symm.trans hactive
  | @reapproved id member ht =>
    have hsame : ∀ id' a, _ := fun id' a => tallies_call (h := h) he id' a
    rw [ht] at hsame ⊢
    refine ⟨hi.fresh, fun id' a hnone => ?_, fun id' y hy hopen a => ?_, hi.amount, hi.covered⟩
    · obtain ⟨hin, hout, hloss⟩ := hsame id' a
      rw [hin, hout, hloss]
      obtain ⟨hin, hout, hloss⟩ := hi.none id' a hnone
      rw [hin, hout, hloss]
      exact ⟨rfl, rfl, rfl⟩
    · obtain ⟨hin, hout, hloss⟩ := hsame id' a
      rw [hin, hout, hloss]
      exact unmoved (hi.held id' y hy hopen a)
  | @approved id member y before after m hy hforming hmembers _ _ ht =>
    refine escrow_save hi he rfl hy (loan_of ht rfl (hreg.under hy) rfl) (by rw [ht]; rfl) (fun _ a => ?_) rfl
      (fun hactive => ?_)
    · rw [stakeAt_approvedBy hmembers]
      exact unmoved (hi.held id y hy (not_final (.inl hforming)) a)
    · have hstatus : (if (y.withApproval s.store.syndications.config before.length { m with approved := true }).Quorate
          s.store.syndications.config then SyndicationStatus.ready else y.status) = .active := hactive
      rw [hforming] at hstatus
      split at hstatus <;> cases hstatus
  | @left id member y before after m hy hstatus hmembers haddress ht =>
    have hformed := hreg.formed hy
    have hstake : 0 ≤ m.stake := hformed.stake_nonneg (by rw [hmembers]; simp)
    refine escrow_save hi he rfl hy (loan_of ht rfl (hreg.under hy) rfl) (by rw [ht]; rfl) (fun _ a => ?_) rfl
      (fun hactive => ?_)
    · have hopen : ¬ y.Final := not_final (hstatus.imp_right .inl)
      obtain ⟨hheld, hlost⟩ := hi.held id y hy hopen a
      have hsplit := stakeAt_leftBy s.store.syndications.config hmembers a
      rw [haddress] at hsplit
      rw [paidBackBy_leave hy (congrArg SyndicationStore.bank ht) hstake, hheld, hlost]
      refine ⟨?_, rfl⟩
      show _ + 0 = _
      omega
    · have hafter : (if y.status = .ready ∧ ¬ (y.without s.store.syndications.config before.length m).Quorate
          s.store.syndications.config then SyndicationStatus.forming else y.status) = .active := hactive
      rcases hstatus with hforming | hready
      · rw [hforming] at hafter
        split at hafter <;> cases hafter
      · rw [hready] at hafter
        split at hafter <;> cases hafter
  | cancelled hy hstatus ht =>
    refine escrow_save hi he rfl hy (loan_of ht rfl (hreg.under hy) rfl) (by rw [ht]; rfl) (fun hopen => ?_) rfl
      (fun hactive => by cases hactive)
    exact absurd (.inr (.inl rfl)) hopen
  | @requested id lead y now hy hready _ hcovered ht =>
    refine escrow_save hi he rfl hy (loan_of ht rfl (hreg.under hy) rfl) (by rw [ht]; rfl) (fun _ a => ?_) rfl
      (fun _ => hcovered)
    exact unmoved (hi.held id y hy (not_final (.inr (.inl hready))) a)
  | @repaid id repayer amount y repayment _ _ hy hactive _ ht =>
    refine escrow_save hi he rfl hy (by rw [ht]; exact update_stored hy) (by rw [ht]; rfl) (fun hopen a => ?_) rfl
      (hi.covered id y hy)
    exact unmoved (hi.held id y hy hopen a)
  | repaidInFull repayment _ _ hy _ _ ht =>
    refine escrow_save hi he rfl hy (loan_of ht rfl (hreg.under hy) rfl) (by rw [ht]; rfl) (fun hopen => ?_) rfl
      (fun hactive => by cases hactive)
    exact absurd (.inl rfl) hopen
  | @defaulted id caller y shortfall hy _ _ _ _ ht =>
    have hsaved : t.syndications.loanSyndication =
        update s.store.syndications.loanSyndication id (some (y.defaultedWith shortfall)) :=
      loan_of ht (chargeRecords_keeps Syndications.loanSyndication fun _ _ _ _ => rfl) (hreg.under hy) rfl
    have hcounter : t.syndications.syndicationCounter = s.store.syndications.syndicationCounter := by
      rw [ht]
      exact chargeRecords_keeps Syndications.syndicationCounter fun _ _ _ _ => rfl
    refine escrow_save hi he rfl hy hsaved hcounter (fun hopen => ?_) rfl (fun hactive => by cases hactive)
    exact absurd (.inr (.inr rfl)) hopen
  | defaultedEmpty hy _ _ ht =>
    refine escrow_save hi he rfl hy (loan_of ht rfl (hreg.under hy) rfl) (by rw [ht]; rfl) (fun hopen => ?_) rfl
      (fun hactive => by cases hactive)
    exact absurd (.inr (.inr rfl)) hopen

/-! ## The end -/

/-- In a final state nothing pays the members any more. -/
theorem withdraws_final (hy : s.store.syndications.loanSyndication id = some y) (hf : y.Final) {a : Address} {x : Int}
    (hw : Withdraws s id a x) : x = 0 := by
  obtain ⟨signers, op, t, hop, he, rfl⟩ := hw
  have hopen : ∀ {y'}, s.store.syndications.loanSyndication id = some y' →
      ¬ (y'.status = .forming ∨ y'.status = .ready ∨ y'.status = .active) := by
    intro y' hy' hstatus
    cases hy.symm.trans hy'
    exact not_final hstatus hf
  cases syndicationEffect_of he with
  | created => cases hop
  | reapproved ht =>
    rw [ht, movedBy]
    omega
  | joined _ _ hy' hforming =>
    cases hop
    exact absurd (.inl hforming) (hopen hy')
  | approved _ hy' hforming =>
    cases hop
    exact absurd (.inl hforming) (hopen hy')
  | left _ hy' hstatus =>
    cases hop
    exact absurd (hstatus.imp_right .inl) (hopen hy')
  | cancelled hy' hstatus =>
    cases hop
    exact absurd (hstatus.imp_right .inl) (hopen hy')
  | requested _ hy' hready =>
    cases hop
    exact absurd (.inr (.inl hready)) (hopen hy')
  | repaid _ _ _ hy' hactive =>
    cases hop
    exact absurd (.inr (.inr hactive)) (hopen hy')
  | repaidInFull _ _ _ hy' hactive =>
    cases hop
    exact absurd (.inr (.inr hactive)) (hopen hy')
  | defaulted hy' hactive =>
    cases hop
    exact absurd (.inr (.inr hactive)) (hopen hy')
  | defaultedEmpty hy' hactive =>
    cases hop
    exact absurd (.inr (.inr hactive)) (hopen hy')

/-- Everything escrowed has come back or is lost. -/
def EscrowBalanced (h : SyndicationHistory) (g : Syndications) : Prop :=
  ∀ id y, g.loanSyndication id = some y → y.Final → ∀ a, paidBack id a h = escrowed id a h - lost id a h

theorem settled_iff : EscrowSettled h s ↔ EscrowBalanced h s.store.syndications := by
  constructor
  · intro hs id y hy hf a
    obtain ⟨x, hx, hsum⟩ := hs id y hy hf a
    have hzero : x = 0 := hx.elim (fun h0 => h0) (withdraws_final hy hf)
    rw [hzero, add_zero] at hsum
    exact hsum
  · intro hb id y hy hf a
    exact ⟨0, .inl rfl, by rw [add_zero]; exact hb id y hy hf a⟩

/-- A call that replaces the record of its syndicate is judged by that syndicate. -/
theorem balanced_save (hb : EscrowBalanced h s.store.syndications) (he : syndicates.exec s signers op = some t)
    (hop : op.syndicate = some id)
    (hsaved : t.syndications.loanSyndication = update s.store.syndications.loanSyndication id (some y')) :
    EscrowBalanced ((s, .call signers op) :: h) t.syndications ↔ (y'.Final → ∀ a,
      paidBack id a h + paidBackBy id a s op t =
        escrowed id a h + escrowedBy id a s op t - (lost id a h + lostBy id a s op t)) := by
  constructor
  · intro hafter hf a
    obtain ⟨hin, hout, hloss⟩ := tallies_call (h := h) he id a
    rw [← hin, ← hout, ← hloss]
    exact hafter id y' (by rw [hsaved, update_self]) hf a
  · intro hself id' y₁ hy₁ hf a
    rcases stored_cases hsaved hy₁ with ⟨rfl, rfl⟩ | ⟨hne, hy₁⟩
    · obtain ⟨hin, hout, hloss⟩ := tallies_call (h := h) he id' a
      rw [hin, hout, hloss]
      exact hself hf a
    · obtain ⟨hin, hout, hloss⟩ := tallies_other (h := h) he (other_of_ne hop hne) a
      rw [hin, hout, hloss]
      exact hb id' y₁ hy₁ hf a

/-- A call that leaves its syndicate open keeps the others balanced. -/
theorem balanced_open (hb : EscrowBalanced h s.store.syndications) (he : syndicates.exec s signers op = some t)
    (hop : op.syndicate = some id)
    (hsaved : t.syndications.loanSyndication = update s.store.syndications.loanSyndication id (some y'))
    (hopen : ¬ y'.Final) : EscrowBalanced ((s, .call signers op) :: h) t.syndications :=
  (balanced_save hb he hop hsaved).2 fun hf => absurd hf hopen

theorem stakeAt_eq_zero_iff (hformed : y.Formed cfg) : (∀ a, stakeAt y a = 0) ↔ ∀ m ∈ y.members, m.stake = 0 := by
  have hzero : ∀ a, sumAt (fun _ => 0) y.members a = 0 := by
    intro a
    refine List.sum_eq_zero (List.forall_mem_map.2 fun m _ => ?_)
    split <;> rfl
  rw [← forall_sumAt_iff _ (fun _ => 0) hformed.distinct]
  exact forall_congr' fun a => by rw [hzero a]; rfl

/-- A call that goes through keeps the escrow settled exactly if it finds what it must. -/
theorem balanced_call (hreg : s.store.syndications.Registered cfg) (hi : Escrow h s.store.syndications)
    (hb : EscrowBalanced h s.store.syndications) (he : syndicates.exec s signers op = some t) :
    EscrowBalanced ((s, .call signers op) :: h) t.syndications ↔ KeepsEscrow s op := by
  cases syndicationEffect_of he with
  | created hpos ht =>
    refine iff_of_true (fun id y hy hf a => ?_) trivial
    obtain ⟨hin, hout, hloss⟩ := tallies_other (h := h) he (show none ≠ some id from (Option.some_ne_none id).symm) a
    rw [hin, hout, hloss]
    have hsaved := loan_of (g := s.store.syndications) (y := newSyndication _ _ _ _ _) ht rfl rfl rfl
    rcases stored_cases hsaved hy with ⟨-, rfl⟩ | ⟨-, hy⟩
    · exact absurd hf (not_final (.inl rfl))
    · exact hb id y hy hf a
  | joined now _ hy hforming _ _ _ _ _ _ _ ht =>
    exact iff_of_true (balanced_open hb he rfl (loan_of ht rfl (hreg.under hy) rfl) (not_final (.inl hforming))) trivial
  | reapproved ht =>
    refine iff_of_true (fun id y hy hf a => ?_) trivial
    obtain ⟨hin, hout, hloss⟩ := tallies_call (h := h) he id a
    rw [hin, hout, hloss]
    rw [ht] at hy ⊢
    have hbalanced := hb id y hy hf a
    simpa [escrowedBy, paidBackBy, lostBy] using hbalanced
  | approved m hy hforming hmembers _ _ ht =>
    refine iff_of_true (balanced_open hb he rfl (loan_of ht rfl (hreg.under hy) rfl) (not_final ?_)) trivial
    dsimp only [LoanSyndication.approvedBy]
    split
    · exact .inr (.inl rfl)
    · exact .inl hforming
  | left m hy hstatus hmembers _ ht =>
    refine iff_of_true (balanced_open hb he rfl (loan_of ht rfl (hreg.under hy) rfl) (not_final ?_)) trivial
    dsimp only [LoanSyndication.leftBy]
    split
    · exact .inl rfl
    · exact hstatus.imp_right .inl
  | @cancelled id caller y hy hstatus ht =>
    have hformed := hreg.formed hy
    have hheld := hi.held id y hy (not_final (hstatus.imp_right .inl))
    rw [KeepsEscrow, forall_stored hy, balanced_save hb he rfl (loan_of ht rfl (hreg.under hy) rfl),
      imp_iff_right (.inr (.inl rfl))]
    have hout := paidBackBy_cancel hy caller (fun m hm => hformed.stake_nonneg hm)
      (congrArg SyndicationStore.bank ht)
    by_cases hpos : 0 < satI128 (y.totalCollateral + y.totalVouchStake)
    · refine iff_of_true (fun a => ?_) (.inl hpos)
      obtain ⟨hsum, hlost⟩ := hheld a
      rw [hout, if_pos hpos, hlost, hsum]
      show _ = _ + 0 - (0 + 0)
      omega
    · rw [or_iff_right hpos, ← stakeAt_eq_zero_iff hformed]
      refine forall_congr' fun a => ?_
      obtain ⟨hsum, hlost⟩ := hheld a
      rw [hout, if_neg hpos, hlost, hsum]
      show _ = _ + 0 - (0 + 0) ↔ _
      omega
  | requested now hy hready _ _ ht =>
    exact iff_of_true (balanced_open hb he rfl (loan_of ht rfl (hreg.under hy) rfl)
      (not_final (.inr (.inr rfl)))) trivial
  | repaid repayment _ hamount hy hactive hshort ht =>
    rw [totalRepaid_add, hamount] at hshort
    refine iff_of_true (balanced_open hb he rfl (by rw [ht]; exact update_stored hy)
      (not_final (.inr (.inr hactive)))) ?_
    rw [KeepsEscrow, forall_stored hy]
    exact hshort
  | @repaidInFull id repayer amount y repayment _ hamount hy hactive hfull ht =>
    have hformed := hreg.formed hy
    rw [totalRepaid_add, hamount] at hfull
    rw [KeepsEscrow, forall_stored hy, balanced_save hb he rfl (loan_of ht rfl (hreg.under hy) rfl),
      imp_iff_right (.inl rfl)]
    refine iff_of_false (fun hall => ?_) (not_lt.2 hfull)
    have hcommitted := hi.covered id y hy hactive
    have hpos := hi.amount id y hy
    obtain ⟨m, hm, hstake⟩ := exists_stake hformed (by omega)
    have hnone : ∀ a, stakeAt y a = 0 := by
      intro a
      have hbalance := hall a
      obtain ⟨hsum, hlost⟩ := hi.held id y hy (not_final (.inr (.inr hactive))) a
      rw [hsum, hlost] at hbalance
      have hplain : paidBack id a h + 0 = paidBack id a h + stakeAt y a + 0 - (0 + 0) := hbalance
      omega
    have hzero := (stakeAt_eq_zero_iff hformed).1 hnone m hm
    omega
  | @defaulted id caller y shortfall hy hactive hshortfall hshort hpos ht =>
    have hformed := hreg.formed hy
    have hsaved := loan_of ht (chargeRecords_keeps Syndications.loanSyndication fun _ _ _ _ => rfl) (hreg.under hy) rfl
    rw [KeepsEscrow, forall_stored hy, balanced_save hb he rfl hsaved, imp_iff_right (.inr (.inr rfl)),
      show s.store.syndications.shortfall y id = shortfall from hshortfall.symm, ← losses_iff hformed hshort hpos,
      ← forall_sumAt_iff _ _ hformed.distinct]
    refine forall_congr' fun a => ?_
    obtain ⟨hsum, hlost⟩ := hi.held id y hy (not_final (.inr (.inr hactive))) a
    rw [lostBy_default hy, show s.store.syndications.shortfall y id = shortfall from hshortfall.symm, hlost, hsum]
    show _ + 0 = _ + sumAt (·.stake) y.members a + 0 - (0 + _) ↔ sumAt (·.stake) y.members a = _
    omega
  | @defaultedEmpty id caller y hy hactive hnone ht =>
    have hcommitted := hi.covered id y hy hactive
    have hpos := hi.amount id y hy
    omega

end

section

variable {world : World} {bank : Ledger} {stored : Option SyndicationConfig} {h : SyndicationHistory}
  {s : Situated World SyndicationStore}

theorem escrow_idle {s : Situated World SyndicationStore}
    {e : Event World (List Address) SyndicationStore SyndicationOp} (hnone : syndicates.done s e = none) (id : Nat)
    (a : Address) :
    escrowed id a ((s, e) :: h) = escrowed id a h ∧ paidBack id a ((s, e) :: h) = paidBack id a h ∧
      lost id a ((s, e) :: h) = lost id a h :=
  ⟨Component.tally_idle hnone _ _, Component.tally_idle hnone _ _, Component.tally_idle hnone _ _⟩

theorem escrow_run (hcfg : (stored.getD defaultSyndicationConfig).Valid)
    (hr : Run syndicates.Step (syndicationStart world bank stored) h s) : Escrow h s.store.syndications := by
  refine Component.inv (I := fun h s => Escrow h s.store.syndications) ?_
    (fun hr hi he => escrow_call (registered_run hcfg hr) hi he) ?_ hr
  · exact ⟨fun _ _ => rfl, fun _ _ _ => ⟨rfl, rfl, rfl⟩, fun _ _ hy => (by cases hy), fun _ _ hy => (by cases hy),
      fun _ _ hy => (by cases hy)⟩
  · intro h s e s' hi hnone hsame
    have hstore : s'.store.syndications = s.store.syndications := by
      rcases hsame with rfl | ⟨-, -, hsame⟩
      · rfl
      · exact hsame
    rw [hstore]
    refine ⟨hi.fresh, fun id a hnone' => ?_, fun id y hy hopen a => ?_, hi.amount, hi.covered⟩
    · obtain ⟨hin, hout, hloss⟩ := escrow_idle (h := h) hnone id a
      rw [hin, hout, hloss]
      exact hi.none id a hnone'
    · obtain ⟨hin, hout, hloss⟩ := escrow_idle (h := h) hnone id a
      rw [hin, hout, hloss]
      exact hi.held id y hy hopen a

/-- The escrow of every syndicate is settled throughout a run exactly if no repayment
completes a loan, every default takes the whole stake, and every cancellation sees it. -/
theorem syndicate_escrow_iff (hcfg : (stored.getD defaultSyndicationConfig).Valid)
    (hr : Run syndicates.Step (syndicationStart world bank stored) h s) :
    Always EscrowSettled h s ↔ Along (syndicates.WhenDone KeepsEscrow) h := by
  rw [along_iff_throughout]
  refine Component.always_iff ?_ (fun hr hp he => ?_) ?_ hr
  · rintro id y ⟨⟩
  · rw [settled_iff] at hp ⊢
    exact balanced_call (registered_run hcfg hr) (escrow_run hcfg hr) hp he
  · intro h s e s' hp hnone hsame
    rw [settled_iff] at hp ⊢
    have hstore : s'.store.syndications = s.store.syndications := by
      rcases hsame with rfl | ⟨-, -, hsame⟩
      · rfl
      · exact hsame
    intro id y hy hf a
    obtain ⟨hin, hout, hloss⟩ := escrow_idle (h := h) hnone id a
    rw [hin, hout, hloss]
    exact hp id y (hstore ▸ hy) hf a

end

theorem syndicate_escrow_cancelled :
    ∃ h s, Run syndicates.Step (syndicationStart sampleWorld sampleBank none) h s ∧ EscrowSettled h s ∧
      (s.store.syndications.loanSyndication 1).map (·.status) = some .cancelled ∧ escrowed 1 4 h = 400 ∧
        paidBack 1 4 h = 400 := by
  have hr := syndicates.run_play (.nil : Run _ (syndicationStart sampleWorld sampleBank none) [] _)
    (threeJoined ++ [([3], .leaveSyndication 1 3), ([2], .cancelSyndication 1 2)])
  have hvalid : ((none : Option SyndicationConfig).getD defaultSyndicationConfig).Valid :=
    defaultSyndicationConfig_valid
  have halways := (syndicate_escrow_iff hvalid hr).2 (by decide +kernel)
  exact ⟨_, _, hr, halways.last, by decide +kernel, by decide +kernel, by decide +kernel⟩

/-- The loan of three members who all approved it. -/
def threeBorrow : List (List Address × SyndicationOp) :=
  threeJoined ++ [([2], .approveSyndication 1 2), ([3], .approveSyndication 1 3), ([4], .approveSyndication 1 4),
    ([2], .requestSyndicationLoan 1 2)]

/-- The loan is repaid in full, and the stake of the members stays in the contract. -/
theorem syndicate_escrow_stranded :
    ¬ ∀ world bank stored h s, (stored.getD defaultSyndicationConfig).Valid →
      Run syndicates.Step (syndicationStart world bank stored) h s → Always EscrowSettled h s := by
  intro hclaim
  have hr := syndicates.run_play (.nil : Run _ (syndicationStart sampleWorld sampleBank none) [] _)
    (threeBorrow ++ [([2], .repaySyndicationLoan 1 2 1000)])
  have hsettled := (hclaim _ _ none _ _ defaultSyndicationConfig_valid hr).last
  have hy : ((syndicates.play (syndicationStart sampleWorld sampleBank none)
      (threeBorrow ++ [([2], .repaySyndicationLoan 1 2 1000)])).store.syndications.loanSyndication 1).any
        (fun y => y.Final) = true := by decide +kernel
  obtain ⟨y, hstored, hfinal⟩ := (Option.any_eq_true _ _).1 hy
  have hbalanced := settled_iff.1 hsettled 1 y hstored (of_decide_eq_true hfinal) 2
  exact absurd hbalanced (by decide +kernel)

end QuorumCredit
