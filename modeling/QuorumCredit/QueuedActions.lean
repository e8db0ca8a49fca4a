import QuorumCredit.Protocol
/-!
# Queued and direct actions

The governance queue does its actions with code of its own. An action does what
its direct call does if the two go through in the same states and leave the same
storage. For each action, in each state in which the caller may make the direct
call, it is settled here exactly when they do.
-/

open Host Function

namespace QuorumCredit

/-! ## Reads and writes -/

namespace Governed

/-- The state with another configuration. -/
def withConfig (g : Governed) (cfg : AdminConfig) : Governed := { g with admin := { g.admin with config := cfg } }

variable (g : Governed) (cfg : AdminConfig)

@[simp] theorem withConfig_admin : (g.withConfig cfg).admin = { g.admin with config := cfg } := rfl

@[simp] theorem withConfig_access : (g.withConfig cfg).access = g.access := rfl

@[simp] theorem withConfig_bank : (g.withConfig cfg).bank = g.bank := rfl

@[simp] theorem withConfig_authorised : (g.withConfig cfg).authorised = g.authorised := rfl

end Governed

section

variable {ctx : AdminContext} {g : Governed}

namespace Admin

@[simp] theorem goes_config (Q : AdminConfig → Governed → Prop) : Goes config ctx g Q ↔ Q g.admin.config g :=
  goes_look ..

@[simp] theorem goes_onAdmin (f : AdminStore → AdminStore) (Q : Unit → Governed → Prop) :
    Goes (onAdmin f) ctx g Q ↔ Q () { g with admin := f g.admin } :=
  goes_alter ..

@[simp] theorem goes_setConfigEntry (cfg : AdminConfig) (Q : Unit → Governed → Prop) :
    Goes (setConfigEntry cfg) ctx g Q ↔ Q () (g.withConfig cfg) :=
  goes_alter ..

@[simp] theorem goes_onSettings (f : AdminSettings → AdminSettings) (Q : Unit → Governed → Prop) :
    Goes (onSettings f) ctx g Q ↔ Q () { g with admin := { g.admin with settings := f g.admin.settings } } :=
  goes_alter ..

@[simp] theorem goes_onAccess (f : Access → Access) (Q : Unit → Governed → Prop) :
    Goes (onAccess f) ctx g Q ↔ Q () { g with access := f g.access } :=
  goes_alter ..

@[simp] theorem goes_orPanic (x : AdminTx Unit) (Q : Unit → Governed → Prop) :
    Goes (orPanic x) ctx g Q ↔ Goes x ctx g Q := by
  unfold orPanic Goes
  simp only [run_bind]
  cases hx : x ctx g with
  | ok p => simp only [attempt_ok hx, run_pure]
  | error e =>
    cases hc : Failure.returned e with
    | none => simp [attempt, hx, hc]
    | some c => simp [attempt_error hx hc, run_fail]

/-- The guard of the writes, called by the administration. -/
@[simp] theorem goes_guard_requireNotPaused (Q : Unit → Governed → Prop) :
    Goes (guard requireNotPaused) ctx g Q ↔
      (g.admin.config.emergencyPauseEnabled = false ∧ g.access.ThawFits ∧
        (g.access.settled ctx.now).pauseMode = .none) ∧ Q () { g with access := g.access.settled ctx.now } := by
  unfold guard
  rw [goes_under, goes_zoom, goes_requireNotPaused]
  rfl

end Admin

end

/-! ## Agreement -/

/-- What stays in storage after a call. -/
structure Stored where
  admin : AdminStore
  access : Access
  bank : Ledger

def Governed.stored (g : Governed) : Stored := ⟨g.admin, g.access, g.bank⟩

@[simp] theorem Governed.stored_mk (admin : AdminStore) (access : Access) (bank : Ledger) (authorised : List Address) :
    Governed.stored ⟨admin, access, bank, authorised⟩ = ⟨admin, access, bank⟩ := rfl

@[simp] theorem Governed.stored_withConfig (g : Governed) (cfg : AdminConfig) :
    (g.withConfig cfg).stored = ⟨{ g.admin with config := cfg }, g.access, g.bank⟩ := rfl

@[simp] theorem Governed.stored_authorise (g : Governed) (signers : List Address) :
    (g.authorise signers).stored = g.stored := rfl

/-- The permission a direct call of the action asks for. -/
def GovernanceAction.permission : GovernanceAction → AdminPermission
  | .pause | .unpause => .pause
  | .setProtocolFee _ | .setFeeTreasury _ | .setPrepaymentPenaltyBps _ | .setAdminCompensationBps _ => .manageFees
  | _ => .updateConfig

/-- The caller may make the direct call of the action: the signers approve it,
the list of them is not empty, and none of them is to be removed. -/
structure CallerChecks (ctx : AdminContext) (g : Governed) (adminSigners : List Address) (action : GovernanceAction) :
    Prop where
  approves : g.Approves ctx action.permission adminSigners
  nonempty : adminSigners ≠ []
  others : ∀ admin, action = .removeAdmin admin → admin ∉ adminSigners

/-- The queue and the direct call go through in this state alike, and leave the same storage. -/
def AgreesWithDirectCall (ctx : AdminContext) (g : Governed) (adminSigners : List Address) (action : GovernanceAction) :
    Prop :=
  ∀ stored, Goes (Admin.executeGovernanceActionInternal action) ctx g (fun _ t => t.stored = stored) ↔
    Goes (Admin.directCall adminSigners action) ctx g fun _ t => t.stored = stored

/-- Where the queue's code for the action is faithful. -/
def GovernanceAction.FaithfulIn (ctx : AdminContext) (g : Governed) : GovernanceAction → Prop
  -- the queue leaves the record of the pause as it is
  | .pause => g.access.thawState = some ⟨ctx.now, ctx.thawDurationSecs, 0⟩
  -- the queue does not ask whether the circuit breaker was acknowledged
  | .unpause => g.access.isCircuitBreakerAcknowledged = true
  -- the queue does not ask whether the token is one
  | .addAllowedToken token =>
    (ctx.isZeroAddress token = false ∧ ctx.isToken token = true) ∨ token ∈ g.admin.config.allowedTokens ∨
      token = g.admin.config.token
  -- the queue does not ask whether the contract is paused
  | .setYieldBps yieldBps =>
    ¬ (0 ≤ yieldBps ∧ yieldBps ≤ 10000) ∨ g.admin.config.emergencyPauseEnabled = false ∧ g.access.pauseMode = .none
  | .setSlashBps slashBps =>
    ¬ (0 < slashBps ∧ slashBps ≤ 10000) ∨ g.admin.config.emergencyPauseEnabled = false ∧ g.access.pauseMode = .none
  | _ => True

/-- The queue's code and the direct call make the same checks and the same writes. -/
def GovernanceAction.copied : GovernanceAction → Bool
  | .pause | .unpause | .addAllowedToken _ | .setYieldBps _ | .setSlashBps _ | .removeAdmin _ | .setSuccessorAdmin _ => false
  | _ => true

theorem forall_and_eq_iff {α : Type} {p q : Prop} {x y : α} :
    (∀ z, p ∧ x = z ↔ q ∧ y = z) ↔ (p ↔ q) ∧ (p → x = y) := by
  constructor
  · intro h
    refine ⟨⟨fun hp => ((h x).1 ⟨hp, rfl⟩).1, fun hq => ((h y).2 ⟨hq, rfl⟩).1⟩, fun hp => ?_⟩
    exact ((h x).1 ⟨hp, rfl⟩).2.symm
  · rintro ⟨hiff, heq⟩ z
    constructor
    · rintro ⟨hp, rfl⟩
      exact ⟨hiff.1 hp, (heq hp).symm⟩
    · rintro ⟨hq, rfl⟩
      exact ⟨hiff.2 hq, heq (hiff.2 hq)⟩

section

open Admin

variable {ctx : AdminContext} {g : Governed} {signers : List Address}

theorem CallerChecks.head {action : GovernanceAction} (h : CallerChecks ctx g signers action) :
    ∃ a, signers.head? = some a := by
  cases signers with
  | nil => exact absurd rfl h.nonempty
  | cons a rest => exact ⟨a, rfl⟩

/-- Who approves does not depend on the pause. -/
@[simp] theorem approves_access (permission : AdminPermission) (access : Access) :
    Governed.Approves ctx { g with access } permission signers ↔ g.Approves ctx permission signers := by
  constructor
  · intro h
    exact ⟨⟨h.nodup, h.signed, h.outside, h.unused⟩, h.enough, h.registered, h.notRevoked, h.permitted⟩
  · intro h
    exact ⟨⟨h.nodup, h.signed, h.outside, h.unused⟩, h.enough, h.registered, h.notRevoked, h.permitted⟩

attribute [local simp] executeGovernanceActionInternal directCall getRequiredPermission

/-! ## Where the code differs -/

/-- A pause through the queue agrees where its record is already there. -/
theorem agrees_pause (h : CallerChecks ctx g signers .pause) :
    AgreesWithDirectCall ctx g signers .pause ↔ g.access.thawState = some ⟨ctx.now, ctx.thawDurationSecs, 0⟩ := by
  obtain ⟨a, ha⟩ := h.head
  have happroved : g.Approves ctx .pause signers := h.approves
  simp [AgreesWithDirectCall, pause, happroved, ha]

theorem agrees_unpause (h : CallerChecks ctx g signers .unpause) :
    AgreesWithDirectCall ctx g signers .unpause ↔ g.access.isCircuitBreakerAcknowledged = true := by
  obtain ⟨a, ha⟩ := h.head
  have happroved : g.Approves ctx .pause signers := h.approves
  simp [AgreesWithDirectCall, unpause, happroved, ha]

theorem agrees_addAllowedToken {token : Address} (h : CallerChecks ctx g signers (.addAllowedToken token)) :
    AgreesWithDirectCall ctx g signers (.addAllowedToken token) ↔
      (ctx.isZeroAddress token = false ∧ ctx.isToken token = true) ∨ token ∈ g.admin.config.allowedTokens ∨
        token = g.admin.config.token := by
  have happroved : g.Approves ctx .updateConfig signers := h.approves
  simp [AgreesWithDirectCall, addAllowedToken, requireValidToken, requireValidAddress, happroved, ← and_assoc]
  tauto

/-- A rate set through the queue agrees where it is refused for itself, or the contract is open. -/
theorem agrees_update {action : GovernanceAction} {valid : Prop} {cfg : AdminConfig}
    (hqueue : ∀ Q, Goes (executeGovernanceActionInternal action) ctx g Q ↔ valid ∧ Q () (g.withConfig cfg))
    (hdirect : ∀ Q, Goes (directCall signers action) ctx g Q ↔
      (g.admin.config.emergencyPauseEnabled = false ∧ g.access.ThawFits ∧
        (g.access.settled ctx.now).pauseMode = .none) ∧ valid ∧
        Q () ((Governed.authorise { g with access := g.access.settled ctx.now } signers).withConfig cfg)) :
    AgreesWithDirectCall ctx g signers action ↔
      ¬ valid ∨ g.admin.config.emergencyPauseEnabled = false ∧ g.access.pauseMode = .none := by
  simp only [AgreesWithDirectCall, hqueue, hdirect, ← and_assoc, forall_and_eq_iff, Governed.stored_withConfig,
    Governed.authorise_admin, Governed.authorise_access, Governed.authorise_bank, Stored.mk.injEq, true_and, and_true]
  by_cases hvalid : valid
  · simp only [hvalid, and_true, true_iff, true_implies, not_true, false_or]
    constructor
    · rintro ⟨hopen, hsame⟩
      rw [← hsame] at hopen
      exact ⟨hopen.1.1, hopen.2⟩
    · rintro ⟨hemergency, hnone⟩
      have hthawing : g.access.pauseMode ≠ .thawing := by
        rw [hnone]
        decide
      have hsame : g.access.settled ctx.now = g.access := Access.settled_of_not_thawing hthawing
      rw [hsame]
      exact ⟨⟨⟨hemergency, Access.thawFits_of_not_thawing hthawing⟩, hnone⟩, rfl⟩
  · simp [hvalid]

theorem agrees_setYieldBps {yieldBps : Int} (h : CallerChecks ctx g signers (.setYieldBps yieldBps)) :
    AgreesWithDirectCall ctx g signers (.setYieldBps yieldBps) ↔
      ¬ (0 ≤ yieldBps ∧ yieldBps ≤ 10000) ∨ g.admin.config.emergencyPauseEnabled = false ∧
        g.access.pauseMode = .none := by
  obtain ⟨a, ha⟩ := h.head
  have happroved : g.Approves ctx .updateConfig signers := h.approves
  have hqueue : ∀ Q, Goes (executeGovernanceActionInternal (.setYieldBps yieldBps)) ctx g Q ↔
      (0 ≤ yieldBps ∧ yieldBps ≤ 10000) ∧ Q () (g.withConfig { g.admin.config with yieldBps }) := by
    intro Q
    simp
  refine agrees_update hqueue fun Q => ?_
  simp [updateConfig, updateYieldBps, updateSlashBps, updateField, ha, happroved]

theorem agrees_setSlashBps {slashBps : Int} (h : CallerChecks ctx g signers (.setSlashBps slashBps)) :
    AgreesWithDirectCall ctx g signers (.setSlashBps slashBps) ↔
      ¬ (0 < slashBps ∧ slashBps ≤ 10000) ∨ g.admin.config.emergencyPauseEnabled = false ∧
        g.access.pauseMode = .none := by
  obtain ⟨a, ha⟩ := h.head
  have happroved : g.Approves ctx .updateConfig signers := h.approves
  have hqueue : ∀ Q, Goes (executeGovernanceActionInternal (.setSlashBps slashBps)) ctx g Q ↔
      (0 < slashBps ∧ slashBps ≤ 10000) ∧ Q () (g.withConfig { g.admin.config with slashBps }) := by
    intro Q
    simp
  refine agrees_update hqueue fun Q => ?_
  simp [updateConfig, updateYieldBps, updateSlashBps, updateField, ha, happroved]

/-! ## Where it is a copy -/

/-- The queue removes an admin as the direct call does when none of the signers is removed. -/
theorem agrees_removeAdmin {adminToRemove : Address} (h : CallerChecks ctx g signers (.removeAdmin adminToRemove)) :
    AgreesWithDirectCall ctx g signers (.removeAdmin adminToRemove) := by
  have happroved : g.Approves ctx .updateConfig signers := h.approves
  simp [AgreesWithDirectCall, removeAdmin, happroved, h.others adminToRemove rfl]

theorem agrees_setSuccessorAdmin {successor : Option Address}
    (h : CallerChecks ctx g signers (.setSuccessorAdmin successor)) :
    AgreesWithDirectCall ctx g signers (.setSuccessorAdmin successor) := by
  obtain ⟨a, ha⟩ := h.head
  have happroved : g.Approves ctx .updateConfig signers := h.approves
  cases successor <;>
    simp [AgreesWithDirectCall, setSuccessorAdmin, writeSuccessor, happroved, ha]

/-- The actions whose code is the same in both. -/
theorem agrees_of_copied {action : GovernanceAction} (hcopied : action.copied = true)
    (h : CallerChecks ctx g signers action) : AgreesWithDirectCall ctx g signers action := by
  obtain ⟨a, ha⟩ := h.head
  have happroved := h.approves
  unfold AgreesWithDirectCall
  cases action with
  | pause | unpause | addAllowedToken | setYieldBps | setSlashBps | removeAdmin | setSuccessorAdmin => cases hcopied
  | _ =>
    simp only [GovernanceAction.permission] at happroved
    simp [happroved, ha, setProtocolFee, setFeeTreasury, setMinStake, setMaxLoanAmount, setMinVouchers,
      setMaxVouchersPerBorrower, setMaxLoanToStakeRatio, setGracePeriod, setAdminThreshold, addAdmin, rotateAdmin,
      validateAdminMember, setReputationNft, setWhitelistEnabled, blacklist, setPrepaymentPenaltyBps,
      setDynamicSlashThreshold, setLoanSizeSlashEnabled, setLoanSizeSlashMaxBps, writeLoanSizeSlashMaxBps,
      setConfirmationRequired, setAdminCompensationBps, setRemovalVoteThreshold, setRateLimitConfig,
      removeAllowedToken, upgrade, updateCurrentContractWasm, and_assoc]

/-! ## Every action -/

/-- An action of the queue does what its direct call does, in every state in which
the caller may make that call, exactly where the queue's code is faithful. -/
theorem queue_agrees_iff {action : GovernanceAction} (h : CallerChecks ctx g signers action) :
    AgreesWithDirectCall ctx g signers action ↔ action.FaithfulIn ctx g := by
  cases action with
  | pause => exact agrees_pause h
  | unpause => exact agrees_unpause h
  | addAllowedToken token => exact agrees_addAllowedToken h
  | setYieldBps yieldBps => exact agrees_setYieldBps h
  | setSlashBps slashBps => exact agrees_setSlashBps h
  | removeAdmin adminToRemove => exact iff_of_true (agrees_removeAdmin h) trivial
  | setSuccessorAdmin successor => exact iff_of_true (agrees_setSuccessorAdmin h) trivial
  | _ => exact iff_of_true (agrees_of_copied rfl h) trivial

end

/-! ## A pause through the queue -/

/-- The contract just deployed, called by the first two admins. -/
def twoAdmins : AdminContext := { sampleAdminWorld with signers := [1, 2] }

theorem twoAdmins_may (action : GovernanceAction) (h : ∀ admin, action = .removeAdmin admin → admin ∉ [1, 2]) :
    CallerChecks twoAdmins adminStart.store.governed [1, 2] action := by
  refine ⟨⟨by decide, by decide, by decide, by decide, fun a ha => ?_⟩, by decide, h⟩
  have hadmin : a ∈ sampleDeployment.admins := List.mem_of_mem_take (i := 2) ha
  exact ⟨.superAdmin, if_pos hadmin, rfl⟩

theorem queue_agrees_pause :
    AgreesWithDirectCall twoAdmins adminStart.store.governed [1, 2] .pause ↔
      GovernanceAction.pause.FaithfulIn twoAdmins adminStart.store.governed :=
  queue_agrees_iff (twoAdmins_may .pause (by simp))

/-- Paused through the queue, the contract has no record of the pause, and cannot be thawed. -/
theorem queued_pause_unrecorded :
    ¬ ∀ ctx g signers action, CallerChecks ctx g signers action → AgreesWithDirectCall ctx g signers action := by
  intro hclaim
  have hagrees := hclaim twoAdmins adminStart.store.governed [1, 2] .pause (twoAdmins_may .pause (by simp))
  have hrecord := (agrees_pause (twoAdmins_may .pause (by simp))).1 hagrees
  cases hrecord

end QuorumCredit
