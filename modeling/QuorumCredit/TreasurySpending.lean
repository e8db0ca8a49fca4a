import QuorumCredit.CommunityTreasury
import QuorumCredit.Host.Script
/-!
# What the community treasury spends

The balance is what was deposited less what executed proposals took, and no
proposal is executed twice. The two limits are not kept: whether an amount is large
is decided when the proposal is made, on the balance of that moment, and the
deadline for the administrators' approval is only read by the call that rejects.
-/

open Host Function

namespace QuorumCredit

/-! ## What a call does -/

namespace TreasuryOp

/-- The proposal whose execution the call decides on. -/
def target : TreasuryOp → Option Nat
  | .finalizeProposal proposalId => some proposalId
  | .adminApproveProposal _ proposalId => some proposalId
  | _ => none

def byAdmin : TreasuryOp → Bool
  | .adminApproveProposal .. => true
  | _ => false

def deposited : TreasuryOp → Int
  | .depositToTreasury amount => max amount 0
  | _ => 0

/-- The proposal that the call has executed, if `c` is what it leaves. -/
def executes (op : TreasuryOp) (c : CommunityTreasury) : Option (Nat × TreasuryProposal) :=
  op.target.bind fun id => ((c.treasuryProposal id).filter fun p => p.status = .executed).map fun p => (id, p)

end TreasuryOp

/-- What a call that goes through found and did. -/
inductive TreasuryEffect (c c' : CommunityTreasury) : TreasuryOp → Prop
  | deposited {amount} : c'.treasuryBalance = c.treasuryBalance + max amount 0 →
      c'.treasuryProposal = c.treasuryProposal → c'.treasuryProposalCounter = c.treasuryProposalCounter →
      TreasuryEffect c c' (.depositToTreasury amount)
  | created {proposer recipient amount description} {p : TreasuryProposal} : p.status = .active →
      p.adminApprovalDeadline = none → c'.treasuryBalance = c.treasuryBalance →
      c'.treasuryProposal = update c.treasuryProposal (c.treasuryProposalCounter + 1) (some p) →
      c'.treasuryProposalCounter = c.treasuryProposalCounter + 1 →
      TreasuryEffect c c' (.createProposal proposer recipient amount description)
  | voted {voter id approve} {p p' : TreasuryProposal} : c.treasuryProposal id = some p → p.status = .active →
      p'.status = .active → p'.adminApprovalDeadline = p.adminApprovalDeadline →
      c'.treasuryBalance = c.treasuryBalance → c'.treasuryProposal = update c.treasuryProposal id (some p') →
      c'.treasuryProposalCounter = c.treasuryProposalCounter → TreasuryEffect c c' (.voteOnProposal voter id approve)
  | closed {id} {p p' : TreasuryProposal} : c.treasuryProposal id = some p → p.status = .active →
      (p.quorumMet = false ∨ p.requiresAdmin = true) → p'.status ≠ .active → p'.status ≠ .executed →
      c'.treasuryBalance = c.treasuryBalance → c'.treasuryProposal = update c.treasuryProposal id (some p') →
      c'.treasuryProposalCounter = c.treasuryProposalCounter → TreasuryEffect c c' (.finalizeProposal id)
  | paid {id} {p : TreasuryProposal} : c.treasuryProposal id = some p → p.status = .active →
      p.quorumMet = true → p.requiresAdmin = false → p.amount ≤ c.treasuryBalance →
      c'.treasuryBalance = c.treasuryBalance - p.amount →
      c'.treasuryProposal = update c.treasuryProposal id (some { p with status := .executed }) →
      c'.treasuryProposalCounter = c.treasuryProposalCounter → TreasuryEffect c c' (.finalizeProposal id)
  | approved {signers id} {p : TreasuryProposal} : c.treasuryProposal id = some p →
      p.status = .pendingAdminApproval → p.amount ≤ c.treasuryBalance →
      c'.treasuryBalance = c.treasuryBalance - p.amount →
      c'.treasuryProposal = update c.treasuryProposal id (some { p with status := .executed }) →
      c'.treasuryProposalCounter = c.treasuryProposalCounter →
      TreasuryEffect c c' (.adminApproveProposal signers id)
  | rejected {id} {p p' : TreasuryProposal} : c.treasuryProposal id = some p → p.status = .pendingAdminApproval →
      p'.status = .rejected → c'.treasuryBalance = c.treasuryBalance →
      c'.treasuryProposal = update c.treasuryProposal id (some p') →
      c'.treasuryProposalCounter = c.treasuryProposalCounter → TreasuryEffect c c' (.autoRejectStaleProposal id)

section

variable {ctx : Context}

theorem yields_updateMonthlyReport (deposited spent : Int) (c : CommunityTreasury) :
    Yields (updateMonthlyReport deposited spent) ctx c fun _ c' => ∃ r, c' = { c with treasuryReport := r } := by
  simp only [updateMonthlyReport, yields_steps, yields_i128]
  intro _ _
  exact ⟨_, rfl⟩

theorem yields_depositToTreasury (amount : Int) (c : CommunityTreasury) :
    Yields (depositToTreasury amount) ctx c fun _ c' =>
      ∃ r, c' = { c with treasuryBalance := c.treasuryBalance + max amount 0, treasuryReport := r } := by
  unfold depositToTreasury
  split
  case isTrue hnone =>
    rw [yields_pure, max_eq_right hnone, add_zero]
    exact ⟨_, rfl⟩
  case isFalse hsome =>
    simp only [setTreasuryBalance, yields_steps, yields_i128]
    intro _
    rw [max_eq_left (le_of_not_ge hsome)]
    refine (yields_updateMonthlyReport amount 0 _).mono ?_
    rintro _ _ ⟨r, rfl⟩
    exact ⟨r, rfl⟩

theorem yields_executeTreasuryProposal (id : Nat) (p : TreasuryProposal) (c : CommunityTreasury) :
    Yields (executeTreasuryProposal id p) ctx c fun _ c' =>
      p.amount ≤ c.treasuryBalance ∧ c'.treasuryBalance = c.treasuryBalance - p.amount ∧
        c'.treasuryProposal = update c.treasuryProposal id (some { p with status := .executed }) ∧
        c'.treasuryProposalCounter = c.treasuryProposalCounter := by
  simp only [executeTreasuryProposal, setTreasuryBalance, saveTreasuryProposal, yields_steps, yields_i128]
  intro hwithin _
  refine (yields_updateMonthlyReport 0 p.amount _).mono ?_
  rintro _ _ ⟨r, rfl⟩
  exact ⟨hwithin, rfl, rfl, rfl⟩

theorem yields_finalizeProposal (id : Nat) (c : CommunityTreasury) :
    Yields (finalizeProposal id) ctx c fun _ c' => TreasuryEffect c c' (.finalizeProposal id) := by
  simp only [finalizeProposal, loadTreasuryProposal, yields_steps, yields_i128]
  intro p hp hactive _ _
  split
  case isTrue hquorum =>
    simp only [saveTreasuryProposal, yields_alter]
    exact .closed hp hactive (.inl hquorum) (by simp) (by simp) rfl rfl rfl
  case isFalse hquorum =>
    split
    case isTrue hadmin =>
      simp only [saveTreasuryProposal, yields_steps, yields_u64]
      intro _
      exact .closed hp hactive (.inr hadmin) (by simp) (by simp) rfl rfl rfl
    case isFalse hadmin =>
      refine (yields_executeTreasuryProposal id p c).mono ?_
      rintro _ c' ⟨hwithin, hbalance, hproposal, hcounter⟩
      exact .paid hp hactive (by simpa using hquorum) (by simpa using hadmin) hwithin hbalance hproposal hcounter

theorem yields_treasuryOp (timeout : Nat) (op : TreasuryOp) (s : TreasuryStore) :
    Yields (op.run timeout) ctx s fun _ t => TreasuryEffect s.treasury t.treasury op := by
  cases op with
  | depositToTreasury amount =>
    simp only [TreasuryOp.run, yields_parts]
    refine (yields_depositToTreasury amount _).mono ?_
    rintro _ _ ⟨r, rfl⟩
    exact .deposited rfl rfl rfl
  | createProposal proposer recipient amount description =>
    simp only [TreasuryOp.run, discard, createProposal, nextTreasuryProposalId, saveTreasuryProposal, yields_parts,
      yields_steps, yields_requireAuth, yields_i128, yields_u64]
    refine (yields_true _ _ _).mono fun _ access _ => ?_
    intro _ _ _ _ _ _ _
    exact .created rfl rfl rfl rfl rfl
  | voteOnProposal voter id approve =>
    simp only [TreasuryOp.run, voteOnTreasuryProposal, loadTreasuryProposal, saveTreasuryProposal, yields_parts,
      yields_steps, yields_requireAuth, yields_i128]
    refine (yields_true _ _ _).mono fun _ access _ => ?_
    intro _ p hp hactive _ _ _
    refine .voted hp hactive ?_ ?_ rfl rfl rfl
    · cases approve <;> exact hactive
    · cases approve <;> rfl
  | finalizeProposal id =>
    simp only [TreasuryOp.run, yields_parts]
    exact yields_finalizeProposal id _
  | adminApproveProposal signers id =>
    simp only [TreasuryOp.run, adminApproveProposal, loadTreasuryProposal, yields_parts, yields_steps]
    refine (yields_true _ _ _).mono fun _ access _ => ?_
    refine (yields_requireAdminApproval signers).mono ?_
    rintro _ _ rfl p hp hpending
    refine (yields_executeTreasuryProposal id p _).mono ?_
    rintro _ c' ⟨hwithin, hbalance, hproposal, hcounter⟩
    exact .approved hp hpending hwithin hbalance hproposal hcounter
  | autoRejectStaleProposal id =>
    simp only [TreasuryOp.run, autoRejectStaleProposal, loadTreasuryProposal, saveTreasuryProposal, yields_parts,
      yields_steps]
    refine (yields_true _ _ _).mono fun _ access _ => ?_
    intro p hp hpending _ _ _
    exact .rejected hp hpending rfl rfl rfl rfl

end

/-! ## The books -/

section

variable (timeout : Nat)

abbrev TreasuryHistory := List (Situated World TreasuryStore × Event World (List Address) TreasuryStore TreasuryOp)

/-- What the calls deposited. -/
def depositedTotal : TreasuryHistory → Int := (communityTreasury timeout).tally fun _ op _ => op.deposited

/-- What the executed proposals took. -/
def spentTotal : TreasuryHistory → Int :=
  (communityTreasury timeout).tally fun _ op t => ((op.executes t.treasury).map (·.2.amount)).getD 0

/-- The proposals that were executed, the last one first. -/
def executions : TreasuryHistory → List Nat :=
  (communityTreasury timeout).replay (fun _ op t ids => ((op.executes t.treasury).map (·.1)).toList ++ ids) []

end

section

variable {timeout : Nat} {h : TreasuryHistory} {s : Situated World TreasuryStore} {signers : List Address}
  {op : TreasuryOp} {t : TreasuryStore}

/-- The balance is accounted for, and the proposals executed so far are marked. -/
structure TreasuryBooks (timeout : Nat) (h : TreasuryHistory) (c : CommunityTreasury) : Prop where
  balance : c.treasuryBalance = depositedTotal timeout h - spentTotal timeout h
  nonneg : 0 ≤ c.treasuryBalance
  once : (executions timeout h).Nodup
  executed : ∀ id ∈ executions timeout h, ∃ p, c.treasuryProposal id = some p ∧ p.status = .executed
  numbered : ∀ id, c.treasuryProposalCounter < id → c.treasuryProposal id = none
  undated : ∀ id p, c.treasuryProposal id = some p → p.status = .active → p.adminApprovalDeadline = none

/-- A call that executes nothing and writes the proposal `id`, which was not executed. -/
theorem TreasuryBooks.written (hb : TreasuryBooks timeout h s.store.treasury)
    (he : (communityTreasury timeout).exec s signers op = some t) (hnone : op.executes t.treasury = none)
    (hdeposited : op.deposited = 0) {id : Nat} {p' : TreasuryProposal}
    (hfresh : ∀ p, s.store.treasury.treasuryProposal id = some p → p.status ≠ .executed)
    (hdate : p'.status = .active → p'.adminApprovalDeadline = none)
    (hbalance : t.treasury.treasuryBalance = s.store.treasury.treasuryBalance)
    (hproposal : t.treasury.treasuryProposal = update s.store.treasury.treasuryProposal id (some p'))
    (hcounter : s.store.treasury.treasuryProposalCounter ≤ t.treasury.treasuryProposalCounter)
    (hid : id ≤ t.treasury.treasuryProposalCounter) :
    TreasuryBooks timeout ((s, .call signers op) :: h) t.treasury := by
  have hsame : executions timeout ((s, .call signers op) :: h) = executions timeout h := by
    rw [executions, Component.replay_call he, hnone]
    rfl
  constructor
  · rw [depositedTotal, spentTotal, Component.tally_call he, Component.tally_call he, hdeposited, hnone, hbalance,
      hb.balance]
    simp [depositedTotal, spentTotal]
  · rw [hbalance]
    exact hb.nonneg
  · rw [hsame]
    exact hb.once
  · rw [hsame]
    intro id' hmem
    obtain ⟨p, hp, hexecuted⟩ := hb.executed id' hmem
    have hne : id' ≠ id := by
      rintro rfl
      exact hfresh p hp hexecuted
    refine ⟨p, ?_, hexecuted⟩
    rw [hproposal, update_of_ne hne]
    exact hp
  · intro id' hlt
    rw [hproposal, update_of_ne (by omega)]
    exact hb.numbered id' (by omega)
  · intro id' p hp hactive
    rw [hproposal, update_apply] at hp
    split at hp
    · cases hp
      exact hdate hactive
    · exact hb.undated id' p hp hactive

/-- A call that executes the proposal `id`. -/
theorem TreasuryBooks.spent (hb : TreasuryBooks timeout h s.store.treasury)
    (he : (communityTreasury timeout).exec s signers op = some t) {id : Nat} {p : TreasuryProposal}
    (htarget : op.target = some id) (hdeposited : op.deposited = 0) (hp : s.store.treasury.treasuryProposal id = some p)
    (hfresh : p.status ≠ .executed) (hwithin : p.amount ≤ s.store.treasury.treasuryBalance)
    (hbalance : t.treasury.treasuryBalance = s.store.treasury.treasuryBalance - p.amount)
    (hproposal : t.treasury.treasuryProposal =
      update s.store.treasury.treasuryProposal id (some { p with status := .executed }))
    (hcounter : t.treasury.treasuryProposalCounter = s.store.treasury.treasuryProposalCounter) :
    TreasuryBooks timeout ((s, .call signers op) :: h) t.treasury := by
  have hexecutes : op.executes t.treasury = some (id, { p with status := .executed }) := by
    simp [TreasuryOp.executes, htarget, hproposal]
  have hnow : executions timeout ((s, .call signers op) :: h) = id :: executions timeout h := by
    rw [executions, Component.replay_call he, hexecutes]
    rfl
  constructor
  · rw [depositedTotal, spentTotal, Component.tally_call he, Component.tally_call he, hdeposited, hexecutes, hbalance,
      hb.balance]
    simp only [depositedTotal, spentTotal, Option.map_some, Option.getD_some]
    omega
  · omega
  · rw [hnow, List.nodup_cons]
    refine ⟨fun hmem => ?_, hb.once⟩
    obtain ⟨p', hp', hexecuted⟩ := hb.executed id hmem
    rw [hp] at hp'
    cases hp'
    exact hfresh hexecuted
  · rw [hnow]
    intro id' hmem
    rw [hproposal]
    by_cases hid : id' = id
    · rw [hid, update_self]
      exact ⟨_, rfl, rfl⟩
    · rw [update_of_ne hid]
      exact hb.executed id' ((List.mem_cons.1 hmem).resolve_left hid)
  · intro id' hlt
    have hne : id' ≠ id := by
      rintro rfl
      rw [hb.numbered id' (by omega)] at hp
      cases hp
    rw [hproposal, update_of_ne hne]
    exact hb.numbered id' (by omega)
  · intro id' p' hp' hactive
    rw [hproposal, update_apply] at hp'
    split at hp'
    · cases hp'
      cases hactive
    · exact hb.undated id' p' hp' hactive

theorem TreasuryBooks.known (hb : TreasuryBooks timeout h s.store.treasury) {id : Nat} {p : TreasuryProposal}
    (hp : s.store.treasury.treasuryProposal id = some p) : id ≤ s.store.treasury.treasuryProposalCounter := by
  by_contra hlt
  rw [hb.numbered id (by omega)] at hp
  cases hp

theorem treasuryEffect_of (he : (communityTreasury timeout).exec s signers op = some t) :
    TreasuryEffect s.store.treasury t.treasury op :=
  Component.exec_yields (Q := fun t => TreasuryEffect s.store.treasury t.treasury op)
    (yields_treasuryOp timeout op s.store) he

theorem books_treasuryCall (hb : TreasuryBooks timeout h s.store.treasury)
    (he : (communityTreasury timeout).exec s signers op = some t) :
    TreasuryBooks timeout ((s, .call signers op) :: h) t.treasury := by
  -- the proposal that is written was not executed
  have hopen : ∀ {id : Nat} {p : TreasuryProposal}, s.store.treasury.treasuryProposal id = some p →
      p.status ≠ .executed → ∀ q, s.store.treasury.treasuryProposal id = some q → q.status ≠ .executed := by
    intro id p hp hstatus q hq
    rw [hp] at hq
    cases hq
    exact hstatus
  cases treasuryEffect_of he with
  | @deposited amount hbalance hproposal hcounter =>
    have hsame : executions timeout ((s, .call signers (.depositToTreasury amount)) :: h) = executions timeout h := by
      rw [executions, Component.replay_call he]
      rfl
    have hamount : 0 ≤ max amount 0 := le_max_right amount 0
    constructor
    · rw [depositedTotal, spentTotal, Component.tally_call he, Component.tally_call he, hbalance, hb.balance]
      simp only [depositedTotal, spentTotal, TreasuryOp.deposited, TreasuryOp.executes, TreasuryOp.target,
        Option.bind_none, Option.map_none, Option.getD_none]
      omega
    · have hnonneg := hb.nonneg
      omega
    · rw [hsame]
      exact hb.once
    · rw [hsame, hproposal]
      exact hb.executed
    · rw [hproposal, hcounter]
      exact hb.numbered
    · rw [hproposal]
      exact hb.undated
  | created hactive hdate hbalance hproposal hcounter =>
    refine hb.written he rfl rfl (fun p hp => ?_) (fun _ => hdate) hbalance hproposal (by omega) (by omega)
    rw [hb.numbered _ (by omega)] at hp
    cases hp
  | voted hp hactive hactive' hdate hbalance hproposal hcounter =>
    refine hb.written he rfl rfl (hopen hp (by simp [hactive])) (fun _ => ?_) hbalance hproposal hcounter.ge ?_
    · rw [hdate]
      exact hb.undated _ _ hp hactive
    · rw [hcounter]
      exact hb.known hp
  | @closed id p p' hp hactive hnot hinactive hunspent hbalance hproposal hcounter =>
    have hnone : TreasuryOp.executes (.finalizeProposal id) t.treasury = none := by
      simp [TreasuryOp.executes, TreasuryOp.target, hproposal, hunspent]
    refine hb.written he hnone rfl (hopen hp (by simp [hactive])) (fun h => absurd h hinactive) hbalance hproposal
      hcounter.ge ?_
    rw [hcounter]
    exact hb.known hp
  | paid hp hactive _ _ hwithin hbalance hproposal hcounter =>
    exact hb.spent he rfl rfl hp (by simp [hactive]) hwithin hbalance hproposal hcounter
  | approved hp hpending hwithin hbalance hproposal hcounter =>
    exact hb.spent he rfl rfl hp (by simp [hpending]) hwithin hbalance hproposal hcounter
  | rejected hp hpending hrejected hbalance hproposal hcounter =>
    refine hb.written he rfl rfl (hopen hp (by simp [hpending])) (by simp [hrejected]) hbalance hproposal hcounter.ge ?_
    rw [hcounter]
    exact hb.known hp

theorem books_treasuryRun {world : World} {access : Access}
    (hr : Run (communityTreasury timeout).Step (treasuryStart world access) h s) :
    TreasuryBooks timeout h s.store.treasury := by
  refine Component.inv (I := fun h s => TreasuryBooks timeout h s.store.treasury) ?_
    (fun _ hb he => books_treasuryCall hb he) ?_ hr
  · exact ⟨rfl, le_rfl, List.nodup_nil, fun _ hmem => (List.not_mem_nil hmem).elim, fun _ _ => rfl,
      fun _ _ hp => by cases hp⟩
  · intro h s e s' hb hnone hsame
    have hstore : s'.store.treasury = s.store.treasury := by
      rcases hsame with rfl | ⟨-, -, hsame⟩
      · rfl
      · exact hsame
    have hlist : executions timeout ((s, e) :: h) = executions timeout h := Component.replay_idle hnone _ _ _
    rw [hstore]
    refine ⟨?_, hb.nonneg, ?_, ?_, hb.numbered, hb.undated⟩
    · rw [depositedTotal, spentTotal, Component.tally_idle hnone, Component.tally_idle hnone]
      exact hb.balance
    · rw [hlist]
      exact hb.once
    · rw [hlist]
      exact hb.executed

/-! ## The limits -/

/-- What the call may spend: without the administrators at most 30% of the balance,
and nothing after the deadline for their approval. -/
def SpendsWithinLimits (timeout : Nat) (s : Situated World TreasuryStore)
    (e : Event World (List Address) TreasuryStore TreasuryOp) : Prop :=
  ∀ op t, (communityTreasury timeout).done s e = some (op, t) → ∀ id p, op.executes t.treasury = some (id, p) →
    (op.byAdmin = false →
      p.amount ≤ (s.store.treasury.treasuryBalance * largeAllocationThresholdBps).tdiv 10000) ∧
    ∀ deadline, p.adminApprovalDeadline = some deadline → s.world.now ≤ deadline

/-- The balance is what was deposited less what was executed, nothing is executed
twice, and every call has kept to the limits. -/
structure TreasuryControlled (timeout : Nat) (h : TreasuryHistory) (s : Situated World TreasuryStore) : Prop where
  balance : s.store.treasury.treasuryBalance = depositedTotal timeout h - spentTotal timeout h
  nonneg : 0 ≤ s.store.treasury.treasuryBalance
  once : (executions timeout h).Nodup
  limits : Along (SpendsWithinLimits timeout) h

/-- Whether the amount is large for the balance, as `create_proposal` decides it. -/
def TreasuryProposal.isLarge (p : TreasuryProposal) (balance : Int) : Prop :=
  (balance * largeAllocationThresholdBps).tdiv 10000 < p.amount

/-- A proposal that was small when it was made and has passed is not large now, and
the administrators approve before the deadline. -/
def StillAllowed (s : Situated World TreasuryStore) : TreasuryOp → Prop
  | .finalizeProposal id => ∀ p ∈ s.store.treasury.treasuryProposal id, p.quorumMet = true → p.requiresAdmin = false →
      ¬ p.isLarge s.store.treasury.treasuryBalance
  | .adminApproveProposal _ id => ∀ p ∈ s.store.treasury.treasuryProposal id, ∀ deadline ∈ p.adminApprovalDeadline,
      s.world.now ≤ deadline
  | _ => True

instance (p : TreasuryProposal) (balance : Int) : Decidable (p.isLarge balance) := inferInstanceAs (Decidable (_ < _))

instance (s : Situated World TreasuryStore) (op : TreasuryOp) : Decidable (StillAllowed s op) := by
  unfold StillAllowed
  split <;> infer_instance

theorem spendsWithinLimits_iff (hb : TreasuryBooks timeout h s.store.treasury)
    (he : (communityTreasury timeout).exec s signers op = some t) :
    SpendsWithinLimits timeout s (.call signers op) ↔ StillAllowed s op := by
  have hdone : SpendsWithinLimits timeout s (.call signers op) ↔
      ∀ id p, op.executes t.treasury = some (id, p) →
        (op.byAdmin = false →
          p.amount ≤ (s.store.treasury.treasuryBalance * largeAllocationThresholdBps).tdiv 10000) ∧
        ∀ deadline, p.adminApprovalDeadline = some deadline → s.world.now ≤ deadline := by
    rw [SpendsWithinLimits, Component.done_call he]
    constructor
    · intro hall
      exact hall op t rfl
    · rintro hall _ _ ⟨⟩
      exact hall
  rw [hdone]
  cases treasuryEffect_of he with
  | deposited => simp [TreasuryOp.executes, TreasuryOp.target, StillAllowed]
  | created => simp [TreasuryOp.executes, TreasuryOp.target, StillAllowed]
  | voted => simp [TreasuryOp.executes, TreasuryOp.target, StillAllowed]
  | rejected => simp [TreasuryOp.executes, TreasuryOp.target, StillAllowed]
  | closed hp hactive hnot hinactive hunspent hbalance hproposal =>
    refine iff_of_true ?_ ?_
    · simp [TreasuryOp.executes, TreasuryOp.target, hproposal, hunspent]
    · intro q hq hquorum hadmin
      rw [hp] at hq
      cases hq
      rcases hnot with hnot | hnot
      · rw [hquorum] at hnot
        cases hnot
      · rw [hadmin] at hnot
        cases hnot
  | paid hp hactive hquorum hadmin hwithin hbalance hproposal =>
    simp [TreasuryOp.executes, TreasuryOp.target, TreasuryOp.byAdmin, StillAllowed, TreasuryProposal.isLarge, hproposal,
      hp, hquorum, hadmin, hb.undated _ _ hp hactive]
  | approved hp hpending hwithin hbalance hproposal =>
    simp [TreasuryOp.executes, TreasuryOp.target, TreasuryOp.byAdmin, StillAllowed, hproposal, hp]

end

/-- Account 3 asks for two amounts, 5 and 6 vote for both, the vote ends and the first one is executed. -/
def twoProposals (first second : Int) : List (Component.Act (List Address) TreasuryOp) :=
  [.call [] (.depositToTreasury 1000),
    .call [3] (.createProposal 3 4 first ""), .call [5] (.voteOnProposal 5 1 true),
      .call [6] (.voteOnProposal 6 1 true),
    .call [3] (.createProposal 3 4 second ""), .call [5] (.voteOnProposal 5 2 true),
      .call [6] (.voteOnProposal 6 2 true),
    .wait 604801, .call [] (.finalizeProposal 1)]

def afterTwoProposals (first second : Int) : Situated World TreasuryStore :=
  (communityTreasury 0).perform World.later (treasuryStart sampleWorld .open) (twoProposals first second)

theorem run_twoProposals (first second : Int) :
    Run (communityTreasury 0).Step (treasuryStart sampleWorld .open)
      ((communityTreasury 0).record World.later (treasuryStart sampleWorld .open) [] (twoProposals first second))
      (afterTwoProposals first second) :=
  Component.run_perform (C := communityTreasury 0) World.later (fun _ _ _ => ⟨Nat.le_add_right _ _, rfl, rfl⟩) .nil _

end QuorumCredit
