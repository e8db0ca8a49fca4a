import QuorumCredit.QueuedActions
/-!
# What a call of the administration does

Every call that goes through, said once: what it found, and what it leaves of
the configuration, the revocations and the proposals. Entries no invariant is
about (roles, settings, votes) are left open. The invariants of the
administration are case analyses over `AdminEffect`.
-/

open Host Function

namespace QuorumCredit

/-! ## What stays the same -/

/-- The two configurations agree on everything but settings that stand alone. -/
structure AdminConfig.Alike (cfg cfg' : AdminConfig) : Prop where
  admins : cfg'.admins = cfg.admins
  adminThreshold : cfg'.adminThreshold = cfg.adminThreshold
  token : cfg'.token = cfg.token
  allowedTokens : cfg'.allowedTokens = cfg.allowedTokens
  yieldBps : cfg'.yieldBps = cfg.yieldBps
  slashBps : cfg'.slashBps = cfg.slashBps
  minLoanAmount : cfg'.minLoanAmount = cfg.minLoanAmount
  loanDuration : cfg'.loanDuration = cfg.loanDuration
  gracePeriod : cfg'.gracePeriod = cfg.gracePeriod
  maxLoanToStakeRatio : cfg'.maxLoanToStakeRatio = cfg.maxLoanToStakeRatio
  loanSizeSlashMaxBps : cfg'.loanSizeSlashMaxBps = cfg.loanSizeSlashMaxBps

/-- The entries the invariants are about, besides the configuration. -/
structure AdminRecords where
  revokedAdmin : Address → Bool
  multiTierThresholds : Option MultiTierAdminThresholds
  adminActions : Table AdminActionProposal
  configUpdates : Table ConfigUpdateProposal
  governanceProposals : Table GovernanceProposal
  timelocks : Table TimelockProposal

def AdminStore.records (a : AdminStore) : AdminRecords :=
  { revokedAdmin := a.revokedAdmin, multiTierThresholds := a.multiTierThresholds, adminActions := a.adminActions
    configUpdates := a.configUpdates, governanceProposals := a.governanceProposals, timelocks := a.timelocks }

/-- The configuration a timelock is to set. -/
def TimelockAction.newConfig : TimelockAction → Option AdminConfig
  | .setConfig cfg => some cfg
  | .slash _ => none

/-- The slash rates put to a vote are those already put to one. -/
def SameRates (t t' : Table SlashThresholdProposal) : Prop :=
  ∀ id p', t'.entry id = some p' → ∃ p, t.entry id = some p ∧ p'.proposedThreshold = p.proposedThreshold

/-! ## Actions -/

/-- What both the queue and the direct call check of the configuration. -/
def GovernanceAction.Checked (cfg : AdminConfig) : GovernanceAction → Prop
  | .addAllowedToken token => token ∉ cfg.allowedTokens ∧ token ≠ cfg.token
  | .removeAllowedToken token => token ∈ cfg.allowedTokens
  | .setMaxLoanToStakeRatio ratio => ratio ≠ 0
  | .setGracePeriod period => period ≤ cfg.loanDuration
  | .setYieldBps yieldBps => 0 ≤ yieldBps ∧ yieldBps ≤ 10000
  | .setSlashBps slashBps => 0 < slashBps ∧ slashBps ≤ 10000
  | .setAdminThreshold threshold => threshold ≠ 0 ∧ threshold ≤ cfg.admins.length
  | .addAdmin newAdmin => newAdmin ∉ cfg.admins
  | .removeAdmin adminToRemove =>
    adminToRemove ∈ cfg.admins ∧ cfg.adminThreshold ≤ (cfg.admins.erase adminToRemove).length
  | .rotateAdmin oldAdmin newAdmin => oldAdmin ≠ newAdmin ∧ newAdmin ∉ cfg.admins ∧ oldAdmin ∈ cfg.admins
  | .setLoanSizeSlashMaxBps maxBps => cfg.slashBps ≤ maxBps ∧ maxBps ≤ 10000
  | _ => True

/-- The configuration an action leaves. -/
def GovernanceAction.writeConfig (cfg : AdminConfig) : GovernanceAction → AdminConfig
  | .addAllowedToken token => { cfg with allowedTokens := cfg.allowedTokens ++ [token] }
  | .removeAllowedToken token => { cfg with allowedTokens := cfg.allowedTokens.erase token }
  | .setMaxLoanToStakeRatio ratio => { cfg with maxLoanToStakeRatio := ratio }
  | .setGracePeriod period => { cfg with gracePeriod := period }
  | .setYieldBps yieldBps => { cfg with yieldBps }
  | .setSlashBps slashBps => { cfg with slashBps }
  | .setAdminThreshold threshold => { cfg with adminThreshold := threshold }
  | .addAdmin newAdmin => { cfg with admins := cfg.admins ++ [newAdmin] }
  | .removeAdmin adminToRemove => { cfg with admins := cfg.admins.erase adminToRemove }
  | .rotateAdmin oldAdmin newAdmin => { cfg with admins := Admin.replaceAdmin oldAdmin newAdmin cfg.admins }
  | .setDynamicSlashThreshold enabled => { cfg with dynamicSlashThreshold := enabled }
  | .setLoanSizeSlashEnabled enabled => { cfg with loanSizeSlashEnabled := enabled }
  | .setLoanSizeSlashMaxBps maxBps => { cfg with loanSizeSlashMaxBps := maxBps }
  | .setSuccessorAdmin successor => { cfg with successorAdmin := successor }
  | .setConfirmationRequired enabled => { cfg with confirmationRequired := enabled }
  | .setAdminCompensationBps compensationBps => { cfg with adminCompensationBps := compensationBps }
  | .setRemovalVoteThreshold threshold => { cfg with removalVoteThreshold := threshold }
  | .setRateLimitConfig rateLimitConfig => { cfg with rateLimitConfig }
  | _ => cfg

/-- The action was done: checked, its configuration written, the records left alone. -/
structure GovernanceAction.Done (action : GovernanceAction) (a a' : AdminStore) : Prop where
  checked : action.Checked a.config
  config : a'.config = action.writeConfig a.config
  records : a'.records = a.records
  rates : a'.slashThresholds = a.slashThresholds

namespace GovernanceAction.Done

variable {action : GovernanceAction} {a a' : AdminStore}

theorem revokedAdmin (h : action.Done a a') : a'.revokedAdmin = a.revokedAdmin :=
  congrArg AdminRecords.revokedAdmin h.records

theorem multiTierThresholds (h : action.Done a a') : a'.multiTierThresholds = a.multiTierThresholds :=
  congrArg AdminRecords.multiTierThresholds h.records

theorem adminActions (h : action.Done a a') : a'.adminActions = a.adminActions :=
  congrArg AdminRecords.adminActions h.records

theorem configUpdates (h : action.Done a a') : a'.configUpdates = a.configUpdates :=
  congrArg AdminRecords.configUpdates h.records

theorem governanceProposals (h : action.Done a a') : a'.governanceProposals = a.governanceProposals :=
  congrArg AdminRecords.governanceProposals h.records

theorem timelocks (h : action.Done a a') : a'.timelocks = a.timelocks :=
  congrArg AdminRecords.timelocks h.records

end GovernanceAction.Done

/-! ## Calls -/

/-- What `set_config` checks. -/
structure AdminConfig.Accepted (cfg : AdminConfig) : Prop where
  nodup : cfg.admins.Nodup
  threshold : 1 ≤ cfg.adminThreshold ∧ cfg.adminThreshold ≤ cfg.admins.length
  yieldBps : 0 ≤ cfg.yieldBps ∧ cfg.yieldBps ≤ 10000
  slashBps : 0 < cfg.slashBps ∧ cfg.slashBps ≤ 10000
  minLoanAmount : 0 < cfg.minLoanAmount
  loanDuration : cfg.loanDuration ≠ 0
  gracePeriod : cfg.gracePeriod ≤ cfg.loanDuration
  maxLoanToStakeRatio : cfg.maxLoanToStakeRatio ≠ 0

namespace Admin.ConfigUpdate

/-- What `batch_update_config` checks of the arguments it is given. -/
structure Checked (u : ConfigUpdate) (cfg : AdminConfig) : Prop where
  yieldBps : ∀ v ∈ u.yieldBps, 0 ≤ v ∧ v ≤ 10000
  slashBps : ∀ v ∈ u.slashBps, 0 < v ∧ v ≤ 10000
  minLoanAmount : ∀ v ∈ u.minLoanAmount, 0 < v
  loanDuration : ∀ v ∈ u.loanDuration, v ≠ 0
  maxLoanToStakeRatio : ∀ v ∈ u.maxLoanToStakeRatio, v ≠ 0
  gracePeriod : ∀ v ∈ u.gracePeriod, v ≤ u.loanDuration.getD cfg.loanDuration

/-- The configuration with every argument that is given written over it. -/
def write (u : ConfigUpdate) (cfg : AdminConfig) : AdminConfig :=
  { cfg with
    yieldBps := u.yieldBps.getD cfg.yieldBps
    slashBps := u.slashBps.getD cfg.slashBps
    maxVouchers := u.maxVouchers.getD cfg.maxVouchers
    minLoanAmount := u.minLoanAmount.getD cfg.minLoanAmount
    loanDuration := u.loanDuration.getD cfg.loanDuration
    maxLoanToStakeRatio := u.maxLoanToStakeRatio.getD cfg.maxLoanToStakeRatio
    gracePeriod := u.gracePeriod.getD cfg.gracePeriod
    liquidityMiningRateBps := u.liquidityMiningRateBps.getD cfg.liquidityMiningRateBps }

end Admin.ConfigUpdate

/-- The calls that leave alone all that the invariants are about. -/
def AdminOp.isOther : AdminOp → Bool
  | .beginThaw _ | .pauseWithThaw .. | .acknowledgeCircuitBreaker _ | .emergencyPause _ | .emergencyUnpause _
  | .setDefaultRateThreshold .. | .setInsuranceFundPremiumBps .. | .setInsuranceMaxPayoutBps ..
  | .setInsurancePremiumBps .. | .setMaxVouchersPerLoan .. | .setupRoleBasedRateLimits _ | .addToAdminWhitelist ..
  | .removeFromAdminWhitelist .. | .addToAdminBlacklist .. | .removeFromAdminBlacklist .. | .proposeAdmin ..
  | .cancelSuccessorAdmin _ | .assignAdminRole .. | .migrateLegacyAdminsToSuperadmin _ | .setGovernanceQueueConfig ..
  | .voteSlashThreshold .. | .proposeAdminRemoval .. | .voteAdminRemoval .. | .queueWithdrawal ..
  | .executeWithdrawal _ => true
  | _ => false

/-- What the call did to the records of the administration. -/
inductive AdminEffect (a : AdminStore) : AdminOp → AdminStore → Prop
  | other {op a'} : op.isOther = true → a.config.Alike a'.config → a'.records = a.records →
      SameRates a.slashThresholds a'.slashThresholds → AdminEffect a op a'
  | ran {signers action a'} : action.Done a a' → AdminEffect a (.direct signers action) a'
  | configured {signers cfg} : cfg.Accepted → AdminEffect a (.setConfig signers cfg) { a with config := cfg }
  | updated {signers yieldBps slashBps} : (∀ v ∈ yieldBps, 0 ≤ v ∧ v ≤ 10000) → (∀ v ∈ slashBps, 0 < v ∧ v ≤ 10000) →
      AdminEffect a (.updateConfig signers yieldBps slashBps)
        { a with
          config :=
            { a.config with
              yieldBps := yieldBps.getD a.config.yieldBps, slashBps := slashBps.getD a.config.slashBps } }
  | batchUpdated {signers u} : u.Checked a.config →
      AdminEffect a (.batchUpdateConfig signers u) { a with config := u.write a.config }
  | accepted {newAdmin} : a.pendingAdmin = some newAdmin →
      AdminEffect a .acceptAdmin
        { a with config := { a.config with admins := a.config.admins ++ [newAdmin] }, pendingAdmin := none }
  | claimed {successor} : a.config.successorAdmin = some successor →
      AdminEffect a .claimSuccessorAdmin
        { a with
          config := { a.config with admins := a.config.admins ++ [successor], successorAdmin := none }
          successorAdminClaimableAt := none }
  | revoked {existingAdmins target} : target ∈ a.config.admins → a.revokedAdmin target = false →
      2 ≤ a.config.admins.length →
      AdminEffect a (.revokeAdmin existingAdmins target)
        { a with
          config :=
            { a.config with
              admins := a.config.admins.erase target
              adminThreshold := min a.config.adminThreshold (a.config.admins.erase target).length }
          revokedAdmin := update a.revokedAdmin target true }
  | tiered {signers thresholds} :
      0 < thresholds.standardThreshold ∧ 0 < thresholds.highRiskThreshold ∧ 0 < thresholds.criticalThreshold →
      AdminEffect a (.setMultiTierThresholds signers thresholds) { a with multiTierThresholds := some thresholds }
  -- admin actions
  | proposedAction {proposer action make} : (∀ id, (make id).approvals = []) →
      AdminEffect a (.proposeAdminAction proposer action) { a with adminActions := a.adminActions.add make }
  | approvedAction {admin id p} : admin ∈ a.config.admins → a.adminActions.entry id = some p → admin ∉ p.approvals →
      AdminEffect a (.approveAdminAction admin id)
        { a with adminActions := a.adminActions.store id { p with approvals := p.approvals ++ [admin] } }
  | executedAction {id p a'} : a.adminActions.entry id = some p → a.config.adminThreshold ≤ p.approvals.length →
      p.actionType.Done a a' →
      AdminEffect a (.executeAdminAction id)
        { a' with adminActions := a'.adminActions.store id { p with executed := true } }
  -- config updates
  | proposedUpdate {proposer key newValue make} : (∀ id, (make id).approvals = [] ∧ 1 ≤ (make id).newValue) →
      AdminEffect a (.proposeConfigUpdate proposer key newValue) { a with configUpdates := a.configUpdates.add make }
  | approvedUpdate {admin id p} : admin ∈ a.config.admins → a.configUpdates.entry id = some p → admin ∉ p.approvals →
      AdminEffect a (.approveConfigUpdate admin id)
        { a with configUpdates := a.configUpdates.store id { p with approvals := p.approvals ++ [admin] } }
  | finalizedUpdate {id p} : a.configUpdates.entry id = some p → a.config.adminThreshold ≤ p.approvals.length →
      AdminEffect a (.finalizeConfigUpdate id)
        { a with
          config := { a.config with adminThreshold := p.newValue }
          configUpdates := a.configUpdates.store id { p with executed := true } }
  -- the governance queue
  | queued {proposer action description make} : (∀ id, (make id).approvals = [] ∧ (make id).status = .pending) →
      AdminEffect a (.proposeGovernanceAction proposer action description)
        { a with governanceProposals := a.governanceProposals.add make }
  | approvedQueued {admin id p} : admin ∈ a.config.admins → a.governanceProposals.entry id = some p →
      admin ∉ p.approvals →
      AdminEffect a (.approveGovernanceAction admin id)
        { a with
          governanceProposals := a.governanceProposals.store id
            { p with
              approvals := p.approvals ++ [admin]
              status := GovernanceProposal.approvedStatus { p with approvals := p.approvals ++ [admin] }
                a.queueConfig.requireMultisig a.config.adminThreshold } }
  | rejectedQueued {admin id p rejections status} : a.governanceProposals.entry id = some p →
      (status = .approved → p.status = .approved) →
      AdminEffect a (.rejectGovernanceAction admin id)
        { a with governanceProposals := a.governanceProposals.store id { p with rejections, status } }
  | executedQueued {id p executedAt a'} : a.governanceProposals.entry id = some p → p.status = .approved →
      p.action.Done a a' →
      AdminEffect a (.executeGovernanceAction id)
        { a' with governanceProposals := a'.governanceProposals.store id { p with status := .executed, executedAt } }
  | cancelledQueued {caller id p} : a.governanceProposals.entry id = some p →
      AdminEffect a (.cancelGovernanceAction caller id)
        { a with governanceProposals := a.governanceProposals.store id { p with status := .cancelled } }
  -- timelocks
  | proposedChange {proposer cfg make} :
      cfg.admins.Nodup → 1 ≤ cfg.adminThreshold ∧ cfg.adminThreshold ≤ cfg.admins.length →
      (∀ id, (make id).action.newConfig = some cfg) →
      AdminEffect a (.proposeConfigChange proposer cfg) { a with timelocks := a.timelocks.add make }
  | executedChange {id p cfg} : a.timelocks.entry id = some p → p.action.newConfig = some cfg →
      AdminEffect a (.executeConfigChange id)
        { a with config := cfg, timelocks := a.timelocks.store id { p with executed := true } }
  | cancelledTimelock {op id p} : (∃ signers, op = .cancelConfigChange signers id) ∨
      (∃ caller, op = .cancelSlashProposal caller id) →
      a.timelocks.entry id = some p →
      AdminEffect a op { a with timelocks := a.timelocks.store id { p with cancelled := true } }
  -- votes
  | proposedRate {proposer newThreshold make} : 0 < newThreshold ∧ newThreshold ≤ 10000 →
      (∀ id, (make id).proposedThreshold = newThreshold) →
      AdminEffect a (.proposeSlashThreshold proposer newThreshold)
        { a with slashThresholds := a.slashThresholds.add make }
  | finalizedRate {id p cfg} : a.slashThresholds.entry id = some p →
      p.rejectVotes < p.approveVotes ∧ cfg = { a.config with slashBps := p.proposedThreshold } ∨
        ¬ p.rejectVotes < p.approveVotes ∧ cfg = a.config →
      AdminEffect a (.finalizeSlashThreshold id)
        { a with config := cfg, slashThresholds := a.slashThresholds.store id { p with finalized := true } }
  | finalizedRemoval {id p} : a.adminRemovals.entry id = some p → p.adminToRemove ∈ a.config.admins →
      a.config.adminThreshold ≤ (a.config.admins.erase p.adminToRemove).length →
      AdminEffect a (.finalizeAdminRemoval id)
        { a with
          config := { a.config with admins := a.config.admins.erase p.adminToRemove }
          adminRemovals := a.adminRemovals.store id { p with finalized := true } }

/-! ## Reading the code -/

namespace Admin

section

variable {ctx : AdminContext} {g : Governed}

@[simp] theorem yields_config (Q : AdminConfig → Governed → Prop) : Yields config ctx g Q ↔ Q g.admin.config g :=
  yields_look ..

@[simp] theorem yields_isRevoked (admin : Address) (Q : Bool → Governed → Prop) :
    Yields (isRevoked admin) ctx g Q ↔ Q (g.admin.revokedAdmin admin) g :=
  yields_look ..

@[simp] theorem yields_isAdmin (addr : Address) (Q : Bool → Governed → Prop) :
    Yields (isAdmin addr) ctx g Q ↔ Q (decide (addr ∈ g.admin.config.admins)) g := by
  simp [isAdmin]

@[simp] theorem yields_onAdmin (f : AdminStore → AdminStore) (Q : Unit → Governed → Prop) :
    Yields (onAdmin f) ctx g Q ↔ Q () { g with admin := f g.admin } :=
  yields_alter ..

@[simp] theorem yields_setConfigEntry (cfg : AdminConfig) (Q : Unit → Governed → Prop) :
    Yields (setConfigEntry cfg) ctx g Q ↔ Q () (g.withConfig cfg) :=
  yields_alter ..

@[simp] theorem yields_onSettings (f : AdminSettings → AdminSettings) (Q : Unit → Governed → Prop) :
    Yields (onSettings f) ctx g Q ↔ Q () { g with admin := { g.admin with settings := f g.admin.settings } } :=
  yields_alter ..

@[simp] theorem yields_onAccess (f : Access → Access) (Q : Unit → Governed → Prop) :
    Yields (onAccess f) ctx g Q ↔ Q () { g with access := f g.access } :=
  yields_alter ..

@[simp] theorem yields_guard_requireNotPaused (Q : Unit → Governed → Prop) :
    Yields (guard requireNotPaused) ctx g Q ↔
      (g.admin.config.emergencyPauseEnabled = false ∧ g.access.ThawFits ∧
        (g.access.settled ctx.now).pauseMode = .none → Q () { g with access := g.access.settled ctx.now }) :=
  yields_of_goes goes_guard_requireNotPaused Q

@[simp] theorem yields_orPanic (x : AdminTx Unit) (Q : Unit → Governed → Prop) :
    Yields (orPanic x) ctx g Q ↔ Yields x ctx g Q := by
  constructor
  · intro h u t hx
    obtain ⟨v, t', hrun, rfl⟩ := (goes_orPanic x fun _ s => s = t).2 (.of_run hx rfl)
    exact h v _ hrun
  · intro h u t hx
    obtain ⟨v, t', hrun, rfl⟩ := (goes_orPanic x fun _ s => s = t).1 (.of_run hx rfl)
    exact h v _ hrun

@[simp] theorem yields_requireAuth (who : Address) (Q : Unit → Governed → Prop) :
    Yields (requireAuth who) ctx g Q ↔
      ((who ∈ ctx.signers ∧ who ≠ ctx.contract) ∧ who ∉ g.authorised → Q () (g.authorise [who])) :=
  yields_of_goes (fun _ => Admin.goes_requireAuth who) Q

@[simp] theorem yields_requireAdminApproval (signers : List Address) (Q : Unit → Governed → Prop) :
    Yields (requireAdminApproval signers) ctx g Q ↔
      (g.admin.config.adminThreshold ≤ signers.length ∧
        (∀ a ∈ signers, a ∈ g.admin.config.admins ∧ g.admin.revokedAdmin a = false) ∧ g.CanAuthorise ctx signers →
        Q () (g.authorise signers)) :=
  yields_of_goes (fun _ => goes_requireAdminApproval signers) Q

@[simp] theorem yields_requireAdminApprovalForAction (raise : ContractError → Failure) (signers : List Address)
    (action : AdminAction) (Q : Unit → Governed → Prop) :
    Yields (requireAdminApprovalForAction raise signers action) ctx g Q ↔
      (g.Approves ctx (getRequiredPermission action) signers → Q () (g.authorise signers)) :=
  yields_of_goes (fun _ => goes_requireAdminApprovalForAction raise signers action) Q

@[simp] theorem yields_firstAdminSigner (signers : List Address) (Q : Address → Governed → Prop) :
    Yields (firstAdminSigner signers) ctx g Q ↔ ∀ a, signers.head? = some a → Q a g :=
  yields_orFail ..

@[simp] theorem yields_requireNextId {P : Type} (table : AdminStore → Table P) (err : ContractError)
    (Q : Unit → Governed → Prop) :
    Yields (requireNextId table err) ctx g Q ↔ ((table g.admin).counter < u64Max → Q () g) := by
  simp [requireNextId]

@[simp] theorem yields_load {P : Type} (table : AdminStore → Table P) (id : Nat) (err : ContractError)
    (Q : P → Governed → Prop) :
    Yields (load table id err) ctx g Q ↔ ∀ p, (table g.admin).entry id = some p → Q p g := by
  simp [load]

/-- An optional field ends up with the value given, or the one it had. -/
theorem yields_updateField {α : Type} {value : Option α} {ok : α → Prop} [DecidablePred ok] {err : ContractError}
    {write : α → AdminConfig → AdminConfig} (read : AdminConfig → α) (hsame : ∀ cfg, write (read cfg) cfg = cfg)
    (cfg : AdminConfig) (Q : AdminConfig → Governed → Prop) :
    Yields (updateField value ok err write cfg) ctx g Q ↔
      ((∀ v ∈ value, ok v) → Q (write (value.getD (read cfg)) cfg) g) := by
  cases value <;> simp [updateField, hsame]

section

variable (cfg : AdminConfig) (Q : AdminConfig → Governed → Prop)

@[simp] theorem yields_updateYieldBps (value : Option Int) :
    Yields (updateYieldBps value cfg) ctx g Q ↔
      ((∀ v ∈ value, 0 ≤ v ∧ v ≤ 10000) → Q { cfg with yieldBps := value.getD cfg.yieldBps } g) :=
  yields_updateField (·.yieldBps) (fun _ => rfl) cfg Q

@[simp] theorem yields_updateSlashBps (value : Option Int) :
    Yields (updateSlashBps value cfg) ctx g Q ↔
      ((∀ v ∈ value, 0 < v ∧ v ≤ 10000) → Q { cfg with slashBps := value.getD cfg.slashBps } g) :=
  yields_updateField (·.slashBps) (fun _ => rfl) cfg Q

@[simp] theorem yields_updateMaxVouchers (value : Option Nat) :
    Yields (updateMaxVouchers value cfg) ctx g Q ↔
      ((∀ v ∈ value, v ≠ 0) → Q { cfg with maxVouchers := value.getD cfg.maxVouchers } g) :=
  yields_updateField (·.maxVouchers) (fun _ => rfl) cfg Q

@[simp] theorem yields_updateMinLoanAmount (value : Option Int) :
    Yields (updateMinLoanAmount value cfg) ctx g Q ↔
      ((∀ v ∈ value, 0 < v) → Q { cfg with minLoanAmount := value.getD cfg.minLoanAmount } g) :=
  yields_updateField (·.minLoanAmount) (fun _ => rfl) cfg Q

@[simp] theorem yields_updateLoanDuration (value : Option Nat) :
    Yields (updateLoanDuration value cfg) ctx g Q ↔
      ((∀ v ∈ value, v ≠ 0) → Q { cfg with loanDuration := value.getD cfg.loanDuration } g) :=
  yields_updateField (·.loanDuration) (fun _ => rfl) cfg Q

@[simp] theorem yields_updateMaxLoanToStakeRatio (value : Option Nat) :
    Yields (updateMaxLoanToStakeRatio value cfg) ctx g Q ↔
      ((∀ v ∈ value, v ≠ 0) → Q { cfg with maxLoanToStakeRatio := value.getD cfg.maxLoanToStakeRatio } g) :=
  yields_updateField (·.maxLoanToStakeRatio) (fun _ => rfl) cfg Q

@[simp] theorem yields_updateGracePeriod (value : Option Nat) :
    Yields (updateGracePeriod value cfg) ctx g Q ↔
      ((∀ v ∈ value, v ≤ cfg.loanDuration) → Q { cfg with gracePeriod := value.getD cfg.gracePeriod } g) :=
  yields_updateField (·.gracePeriod) (fun _ => rfl) cfg Q

@[simp] theorem yields_updateLiquidityMiningRateBps (value : Option Nat) :
    Yields (updateLiquidityMiningRateBps value cfg) ctx g Q ↔
      ((∀ v ∈ value, v ≤ 10000) → Q { cfg with liquidityMiningRateBps := value.getD cfg.liquidityMiningRateBps } g) :=
  yields_updateField (·.liquidityMiningRateBps) (fun _ => rfl) cfg Q

end

/-- One loop of `validate_admin_config` goes through if the addresses are valid,
pass its check, and no two of them are the same. -/
theorem goes_validateEach {check : Address → AdminTx Unit} {P : Address → Prop}
    (hcheck : ∀ a Q, Goes (check a) ctx g Q ↔ P a ∧ Q () g) (prior addrs : List Address) (Q : Unit → Governed → Prop) :
    Goes (validateEach check prior addrs) ctx g Q ↔
      (addrs.Nodup ∧ ∀ a ∈ addrs, ctx.isZeroAddress a = false ∧ a ∉ prior ∧ P a) ∧ Q () g := by
  induction addrs generalizing prior with
  | nil => simp [validateEach]
  | cons a rest ih =>
    have hrest : (∀ b ∈ rest, b ∉ prior ++ [a]) ↔ (∀ b ∈ rest, b ∉ prior) ∧ a ∉ rest := by
      simp only [List.mem_append, List.mem_singleton, not_or]
      constructor
      · intro h
        exact ⟨fun b hb => (h b hb).1, fun ha => (h a ha).2 rfl⟩
      · rintro ⟨hprior, ha⟩ b hb
        exact ⟨hprior b hb, fun he => ha (he ▸ hb)⟩
    simp only [validateEach, requireValidAddress, goes_bind, goes_ask, goes_require, hcheck, ih, forall_and, hrest,
      List.nodup_cons, List.forall_mem_cons]
    tauto

end

end Admin

/-- The lists and the threshold `validate_admin_config` lets through. -/
structure AdminsValid (ctx : AdminContext) (admins : List Address) (adminThreshold : Nat)
    (adminWhitelist adminBlacklist : List Address) : Prop where
  threshold : adminThreshold ≠ 0 ∧ adminThreshold ≤ admins.length
  whitelist : adminWhitelist.Nodup ∧ ∀ a ∈ adminWhitelist, ctx.isZeroAddress a = false
  blacklist : adminBlacklist.Nodup ∧ ∀ a ∈ adminBlacklist, ctx.isZeroAddress a = false ∧ a ∉ adminWhitelist
  admins : admins.Nodup ∧ ∀ a ∈ admins, ctx.isZeroAddress a = false ∧
    (adminWhitelist = [] ∨ a ∈ adminWhitelist) ∧ a ∉ adminBlacklist

namespace Admin

section

variable {ctx : AdminContext} {g : Governed}

theorem goes_validateAdminConfig (admins : List Address) (adminThreshold : Nat)
    (adminWhitelist adminBlacklist : List Address) (Q : Unit → Governed → Prop) :
    Goes (validateAdminConfig admins adminThreshold adminWhitelist adminBlacklist) ctx g Q ↔
      AdminsValid ctx admins adminThreshold adminWhitelist adminBlacklist ∧ Q () g := by
  have hallowed : ∀ (a : Address) Q, Goes (return () : AdminTx Unit) ctx g Q ↔ True ∧ Q () g := by simp
  have hblocked : ∀ a Q, Goes (checkBlocked adminWhitelist a) ctx g Q ↔ a ∉ adminWhitelist ∧ Q () g := fun a Q =>
    goes_require ..
  have hadmin : ∀ a Q, Goes (checkAdmin adminWhitelist adminBlacklist a) ctx g Q ↔
      ((adminWhitelist = [] ∨ a ∈ adminWhitelist) ∧ a ∉ adminBlacklist) ∧ Q () g := by
    simp [checkAdmin, and_assoc]
  simp only [validateAdminConfig, goes_bind, goes_require, goes_validateEach hallowed, goes_validateEach hblocked,
    goes_validateEach hadmin, List.not_mem_nil, not_false_eq_true, true_and, and_true]
  constructor
  · rintro ⟨-, hthreshold, hwhitelist, hblacklist, hadmins, hq⟩
    exact ⟨⟨hthreshold, hwhitelist, hblacklist, hadmins⟩, hq⟩
  · rintro ⟨h, hq⟩
    refine ⟨?_, h.threshold, h.whitelist, h.blacklist, h.admins, hq⟩
    rintro rfl
    exact h.threshold.1 (Nat.le_zero.1 h.threshold.2)

@[simp] theorem yields_validateAdminConfig (admins : List Address) (adminThreshold : Nat)
    (adminWhitelist adminBlacklist : List Address) (Q : Unit → Governed → Prop) :
    Yields (validateAdminConfig admins adminThreshold adminWhitelist adminBlacklist) ctx g Q ↔
      (AdminsValid ctx admins adminThreshold adminWhitelist adminBlacklist → Q () g) :=
  yields_of_goes (fun Q => goes_validateAdminConfig _ _ _ _ Q) Q

/-! ## What each call does -/

@[simp] theorem yields_requireValidToken (addr : Address) (Q : Unit → Governed → Prop) :
    Yields (requireValidToken addr) ctx g Q ↔
      (ctx.isZeroAddress addr = false → ctx.isToken addr = true → Q () g) := by
  simp [requireValidToken, requireValidAddress]

@[simp] theorem yields_countVote (votes : Nat) (counted : Bool) (Q : Nat → Governed → Prop) :
    Yields (countVote votes counted) ctx g Q ↔
      ((counted = true → votes + 1 ≤ u32Max) → Q (if counted = true then votes + 1 else votes) g) := by
  cases counted <;> simp [countVote]

theorem SameRates.refl (t : Table SlashThresholdProposal) : SameRates t t := fun _ p h => ⟨p, h, rfl⟩

theorem sameRates_store {t : Table SlashThresholdProposal} {id : Nat} {p p' : SlashThresholdProposal}
    (hp : t.entry id = some p) (hrate : p'.proposedThreshold = p.proposedThreshold) : SameRates t (t.store id p') := by
  intro i q hq
  rcases Table.entry_of_store hq with ⟨rfl, rfl⟩ | ⟨-, hq⟩
  · exact ⟨p, hp, hrate⟩
  · exact ⟨q, hq, rfl⟩

/-- The loop of a gate leaves all but the authorisations as they are. -/
theorem authorizeEach_keeps {check : Address → AdminTx Unit}
    (hcheck : ∀ a g, Yields (check a) ctx g fun _ t => t = g) (signers : List Address) :
    Yields (authorizeEach check signers) ctx g fun _ t => t.stored = g.stored := by
  induction signers generalizing g with
  | nil => simp [authorizeEach]
  | cons a rest ih =>
    simp only [authorizeEach, yields_bind]
    refine (hcheck a g).mono fun _ t ht => ?_
    subst ht
    rw [yields_requireAuth]
    intro _
    exact ih.mono fun _ u hu => hu

/-- The calls of the administration that are no proposals. -/
theorem other_effect {op : AdminOp} (hop : op.isOther = true) :
    Yields (Admin.dispatch op) ctx g fun _ t =>
      g.admin.config.Alike t.admin.config ∧ t.admin.records = g.admin.records ∧
        SameRates g.admin.slashThresholds t.admin.slashThresholds := by
  cases op with
  | voteSlashThreshold voter id approve =>
    simp only [Admin.dispatch, voteSlashThreshold, storeSlashThreshold, requireParticipant,
      requireGovernanceParticipant, yields_steps, yields_u64, yields_config, yields_onAdmin,
      yields_guard_requireNotPaused, yields_requireAuth, yields_load, yields_countVote]
    intro _ _ _ p hp _ _ _ _ _ _
    exact ⟨⟨rfl, rfl, rfl, rfl, rfl, rfl, rfl, rfl, rfl, rfl, rfl⟩, rfl, sameRates_store hp rfl⟩
  | migrateLegacyAdminsToSuperadmin signers =>
    simp only [Admin.dispatch, migrateLegacyAdminsToSuperadmin, yields_steps, yields_ite,
      yields_requireAdminApprovalForAction, yields_onAdmin]
    exact fun _ => ⟨fun _ => ⟨⟨rfl, rfl, rfl, rfl, rfl, rfl, rfl, rfl, rfl, rfl, rfl⟩, rfl, SameRates.refl _⟩,
      fun _ => ⟨⟨rfl, rfl, rfl, rfl, rfl, rfl, rfl, rfl, rfl, rfl, rfl⟩, rfl, SameRates.refl _⟩⟩
  | beginThaw | pauseWithThaw | acknowledgeCircuitBreaker | emergencyPause | emergencyUnpause | setDefaultRateThreshold
  | setInsuranceFundPremiumBps | setInsuranceMaxPayoutBps | setInsurancePremiumBps | setMaxVouchersPerLoan
  | setupRoleBasedRateLimits | addToAdminWhitelist | removeFromAdminWhitelist | addToAdminBlacklist
  | removeFromAdminBlacklist | proposeAdmin | cancelSuccessorAdmin | assignAdminRole | setGovernanceQueueConfig
  | proposeAdminRemoval | voteAdminRemoval | queueWithdrawal | executeWithdrawal =>
    simp only [Admin.dispatch, beginThaw, pauseWithThaw, acknowledgeCircuitBreaker, emergencyPause, emergencyUnpause,
      setDefaultRateThreshold, setInsuranceFundPremiumBps, setInsuranceMaxPayoutBps, setInsurancePremiumBps,
      setInsurance, setMaxVouchersPerLoan, setupRoleBasedRateLimits, addToAdminWhitelist, removeFromAdminWhitelist,
      addToAdminBlacklist, removeFromAdminBlacklist, proposeAdmin, cancelSuccessorAdmin, assignAdminRole,
      setGovernanceQueueConfig, proposeAdminRemoval, voteAdminRemoval, queueWithdrawal, executeWithdrawal,
      requireParticipant, requireGovernanceParticipant, storeAdminRemoval, yields_steps, yields_u64, yields_config,
      yields_onAdmin, yields_setConfigEntry, yields_onSettings, yields_onAccess, yields_guard_requireNotPaused,
      yields_requireAuth, yields_requireAdminApproval, yields_requireAdminApprovalForAction, yields_firstAdminSigner,
      yields_requireNextId, yields_load, yields_countVote]
    intros
    exact ⟨⟨rfl, rfl, rfl, rfl, rfl, rfl, rfl, rfl, rfl, rfl, rfl⟩, rfl, SameRates.refl _⟩
  | _ => cases hop

@[simp] theorem yields_updateCurrentContractWasm (hash : Nat) (Q : Unit → Governed → Prop) :
    Yields (updateCurrentContractWasm hash) ctx g Q ↔
      (ctx.wasmUploaded hash = true →
        Q () { g with admin := { g.admin with settings := { g.admin.settings with wasmHash := hash } } }) := by
  simp [updateCurrentContractWasm]

@[simp] theorem yields_validateAdminMember (admin : Address) (cfg : AdminConfig) (Q : Unit → Governed → Prop) :
    Yields (validateAdminMember admin cfg) ctx g Q ↔
      ((cfg.adminWhitelist = [] ∨ admin ∈ cfg.adminWhitelist) → admin ∉ cfg.adminBlacklist → Q () g) := by
  simp [validateAdminMember]

theorem yields_writeSuccessor (successor : Option Address) :
    Yields (writeSuccessor successor) ctx g fun _ t =>
      t.admin.config = { g.admin.config with successorAdmin := successor } ∧ t.admin.records = g.admin.records ∧
        t.admin.slashThresholds = g.admin.slashThresholds := by
  cases successor with
  | none =>
    simp only [writeSuccessor, yields_steps, yields_config, yields_setConfigEntry, yields_onAdmin]
    exact ⟨rfl, rfl, rfl⟩
  | some addr =>
    simp only [writeSuccessor, yields_steps, yields_config, yields_setConfigEntry, yields_onAdmin, yields_u64]
    exact fun _ => ⟨rfl, rfl, rfl⟩

/-- An action the queue executes is done. -/
theorem done_internal (action : GovernanceAction) :
    Yields (executeGovernanceActionInternal action) ctx g fun _ t => action.Done g.admin t.admin := by
  cases action with
  | setSuccessorAdmin successor =>
    simp only [executeGovernanceActionInternal, yields_steps, yields_config]
    intro _
    refine (yields_writeSuccessor successor).mono ?_
    rintro _ _ ⟨hcfg, hrecords, hrates⟩
    exact ⟨trivial, hcfg, hrecords, hrates⟩
  | removeAdmin adminToRemove =>
    simp only [executeGovernanceActionInternal, yields_steps, yields_config, yields_setConfigEntry]
    exact fun hmem _ henough => ⟨⟨hmem, henough⟩, rfl, rfl, rfl⟩
  | addAdmin newAdmin =>
    simp only [executeGovernanceActionInternal, yields_steps, yields_config, yields_validateAdminMember,
      yields_setConfigEntry]
    exact fun _ _ hnew => ⟨hnew, rfl, rfl, rfl⟩
  | rotateAdmin oldAdmin newAdmin =>
    simp only [executeGovernanceActionInternal, yields_steps, yields_config, yields_validateAdminMember,
      yields_setConfigEntry]
    exact fun hne _ _ hnew hold => ⟨⟨hne, hnew, hold⟩, rfl, rfl, rfl⟩
  | setLoanSizeSlashMaxBps maxBps =>
    simp only [executeGovernanceActionInternal, writeLoanSizeSlashMaxBps, yields_steps, yields_config,
      yields_setConfigEntry]
    exact fun hslash hmax => ⟨⟨hslash, hmax⟩, rfl, rfl, rfl⟩
  | addAllowedToken | removeAllowedToken | setMaxLoanToStakeRatio | setGracePeriod | setYieldBps | setSlashBps
  | setAdminThreshold =>
    simp only [executeGovernanceActionInternal, yields_steps, yields_config, yields_setConfigEntry]
    exact fun h => ⟨h, rfl, rfl, rfl⟩
  | _ =>
    simp only [executeGovernanceActionInternal, yields_steps, yields_config, yields_setConfigEntry, yields_onSettings,
      yields_onAccess, yields_updateCurrentContractWasm]
    intros
    exact ⟨trivial, rfl, rfl, rfl⟩

/-- And so is one that is called directly. -/
theorem done_directCall (signers : List Address) (action : GovernanceAction) :
    Yields (directCall signers action) ctx g fun _ t => action.Done g.admin t.admin := by
  cases action with
  | setSuccessorAdmin successor =>
    simp only [directCall, setSuccessorAdmin, yields_steps, yields_config, yields_firstAdminSigner,
      yields_requireAdminApprovalForAction]
    intro _ _
    refine (yields_writeSuccessor successor).mono ?_
    rintro _ _ ⟨hcfg, hrecords, hrates⟩ _ _
    exact ⟨trivial, hcfg, hrecords, hrates⟩
  | removeAdmin adminToRemove =>
    simp only [directCall, removeAdmin, yields_steps, yields_config, yields_setConfigEntry,
      yields_requireAdminApprovalForAction]
    exact fun _ _ hmem _ henough => ⟨⟨hmem, henough⟩, rfl, rfl, rfl⟩
  | addAdmin newAdmin =>
    simp only [directCall, addAdmin, yields_steps, yields_config, yields_validateAdminMember, yields_setConfigEntry,
      yields_requireAdminApprovalForAction]
    exact fun _ _ _ hnew => ⟨hnew, rfl, rfl, rfl⟩
  | rotateAdmin oldAdmin newAdmin =>
    simp only [directCall, rotateAdmin, yields_steps, yields_config, yields_validateAdminMember, yields_setConfigEntry,
      yields_requireAdminApprovalForAction]
    exact fun _ hne _ _ hnew hold => ⟨⟨hne, hnew, hold⟩, rfl, rfl, rfl⟩
  | setLoanSizeSlashMaxBps maxBps =>
    simp only [directCall, setLoanSizeSlashMaxBps, writeLoanSizeSlashMaxBps, yields_steps, yields_config,
      yields_setConfigEntry, yields_requireAdminApprovalForAction, yields_firstAdminSigner]
    exact fun _ hslash hmax _ _ => ⟨⟨hslash, hmax⟩, rfl, rfl, rfl⟩
  | setAdminThreshold threshold =>
    simp only [directCall, setAdminThreshold, yields_steps, yields_config, yields_setConfigEntry,
      yields_requireAdminApprovalForAction]
    exact fun _ hzero hle => ⟨⟨hzero, hle⟩, rfl, rfl, rfl⟩
  | addAllowedToken token =>
    simp only [directCall, addAllowedToken, yields_steps, yields_config, yields_setConfigEntry,
      yields_requireAdminApprovalForAction, yields_requireValidToken]
    exact fun _ _ _ h => ⟨h, rfl, rfl, rfl⟩
  | removeAllowedToken | setMaxLoanToStakeRatio | setGracePeriod =>
    simp only [directCall, removeAllowedToken, setMaxLoanToStakeRatio, setGracePeriod, yields_steps, yields_config,
      yields_setConfigEntry, yields_requireAdminApprovalForAction]
    exact fun _ h => ⟨h, rfl, rfl, rfl⟩
  | setYieldBps yieldBps =>
    simp only [directCall, updateConfig, yields_updateYieldBps, yields_updateSlashBps, yields_steps, yields_config,
      yields_orPanic, yields_guard_requireNotPaused, yields_requireAdminApprovalForAction, yields_setConfigEntry,
      yields_firstAdminSigner]
    exact fun _ _ h _ _ _ => ⟨h yieldBps rfl, rfl, rfl, rfl⟩
  | setSlashBps slashBps =>
    simp only [directCall, updateConfig, yields_updateYieldBps, yields_updateSlashBps, yields_steps, yields_config,
      yields_orPanic, yields_guard_requireNotPaused, yields_requireAdminApprovalForAction, yields_setConfigEntry,
      yields_firstAdminSigner]
    exact fun _ _ _ h _ _ => ⟨h slashBps rfl, rfl, rfl, rfl⟩
  | _ =>
    simp only [directCall, pause, unpause, upgrade, setProtocolFee, setFeeTreasury, setMinStake, setMaxLoanAmount,
      setMinVouchers, setMaxVouchersPerBorrower, setReputationNft, setWhitelistEnabled, blacklist,
      setPrepaymentPenaltyBps, setDynamicSlashThreshold, setLoanSizeSlashEnabled, setConfirmationRequired,
      setAdminCompensationBps, setRemovalVoteThreshold, setRateLimitConfig, yields_steps, yields_config,
      yields_setConfigEntry, yields_onSettings, yields_onAccess, yields_updateCurrentContractWasm,
      yields_requireAdminApprovalForAction, yields_firstAdminSigner]
    intros
    exact ⟨trivial, rfl, rfl, rfl⟩

theorem checkRevoker_keeps (cfg : AdminConfig) (target a : Address) (g : Governed) :
    Yields (checkRevoker cfg target a) ctx g fun _ t => t = g := by
  simp [checkRevoker]

/-- What a call of the administration that goes through did. -/
theorem effect_of_dispatch (op : AdminOp) :
    Yields (Admin.dispatch op) ctx g fun _ t => AdminEffect g.admin op t.admin := by
  cases op with
  | direct signers action => exact (done_directCall signers action).mono fun _ _ h => .ran h
  | setConfig signers cfg =>
    simp only [Admin.dispatch, setConfig, yields_steps, yields_orPanic, yields_guard_requireNotPaused,
      yields_requireAdminApprovalForAction, yields_validateAdminConfig, yields_setConfigEntry, yields_firstAdminSigner]
    intro _ _ hadmins hyield hslash _ hamount hduration hgrace hratio _ _ _
    have hthreshold := hadmins.threshold
    exact .configured ⟨hadmins.admins.1, by omega, hyield, hslash, hamount, hduration, hgrace, hratio⟩
  | updateConfig signers yieldBps slashBps =>
    simp only [Admin.dispatch, updateConfig, yields_updateYieldBps, yields_updateSlashBps, yields_steps, yields_config,
      yields_orPanic, yields_guard_requireNotPaused, yields_requireAdminApprovalForAction, yields_setConfigEntry,
      yields_firstAdminSigner]
    exact fun _ _ hyield hslash _ _ => .updated hyield hslash
  | batchUpdateConfig signers u =>
    simp only [Admin.dispatch, batchUpdateConfig, yields_steps, yields_config, yields_orPanic,
      yields_guard_requireNotPaused, yields_requireAdminApprovalForAction, yields_updateYieldBps, yields_updateSlashBps,
      yields_updateMaxVouchers, yields_updateMinLoanAmount, yields_updateLoanDuration, yields_updateMaxLoanToStakeRatio,
      yields_updateGracePeriod, yields_updateLiquidityMiningRateBps, yields_setConfigEntry, yields_firstAdminSigner]
    intro _ _ hyield hslash _ hamount hduration hratio hgrace _ _ _
    exact .batchUpdated ⟨hyield, hslash, hamount, hduration, hratio, hgrace⟩
  | acceptAdmin =>
    simp only [Admin.dispatch, acceptAdmin, yields_steps, yields_requireAuth, yields_config, yields_setConfigEntry,
      yields_onAdmin]
    exact fun newAdmin hpending _ => .accepted hpending
  | claimSuccessorAdmin =>
    simp only [Admin.dispatch, claimSuccessorAdmin, yields_steps, yields_requireAuth, yields_config,
      yields_setConfigEntry, yields_onAdmin]
    exact fun successor hsuccessor _ _ => .claimed hsuccessor
  | revokeAdmin existingAdmins target =>
    simp only [Admin.dispatch, revokeAdmin, yields_steps, yields_config, yields_isRevoked]
    intro hmem hrevoked hone hothers _
    refine (authorizeEach_keeps (checkRevoker_keeps g.admin.config target) existingAdmins).mono fun _ t ht => ?_
    simp only [yields_setConfigEntry, yields_onAdmin]
    have hadmin : t.admin = g.admin := congrArg Stored.admin ht
    rw [Governed.withConfig_admin, hadmin]
    exact .revoked hmem hrevoked (by omega)
  | setMultiTierThresholds signers thresholds =>
    simp only [Admin.dispatch, setMultiTierThresholds, yields_steps, yields_config, yields_onAdmin,
      yields_requireAdminApprovalForAction]
    exact fun _ hstandard hhigh hcritical => .tiered ⟨hstandard.1, hhigh.1, hcritical.1⟩
  | proposeAdminAction proposer action =>
    simp only [Admin.dispatch, proposeAdminAction, yields_steps, yields_isAdmin, yields_requireAuth,
      yields_requireNextId, yields_onAdmin]
    exact fun _ _ _ => .proposedAction fun _ => rfl
  | approveAdminAction admin id =>
    simp only [Admin.dispatch, approveAdminAction, storeAdminAction, yields_steps, yields_isAdmin, yields_requireAuth,
      yields_load, yields_onAdmin]
    exact fun _ hadmin p hp _ hnew => .approvedAction (of_decide_eq_true hadmin) hp hnew
  | executeAdminAction id =>
    simp only [Admin.dispatch, executeAdminAction, storeAdminAction, yields_steps, yields_config, yields_load,
      yields_onAdmin]
    intro p hp _ henough
    exact (done_internal p.actionType).mono fun _ t hdone => .executedAction hp henough hdone
  | proposeConfigUpdate proposer key newValue =>
    simp only [Admin.dispatch, proposeConfigUpdate, yields_steps, yields_config, yields_isAdmin, yields_requireAuth,
      yields_guard_requireNotPaused, yields_requireNextId, yields_onAdmin]
    intro _ _ _ hvalue _
    cases key
    have hpositive := hvalue trivial
    exact .proposedUpdate fun _ => ⟨rfl, Nat.one_le_iff_ne_zero.2 hpositive.1⟩
  | approveConfigUpdate admin id =>
    simp only [Admin.dispatch, approveConfigUpdate, storeConfigUpdate, yields_steps, yields_isAdmin, yields_requireAuth,
      yields_guard_requireNotPaused, yields_load, yields_onAdmin]
    exact fun _ _ hadmin p hp _ hnew => .approvedUpdate (of_decide_eq_true hadmin) hp hnew
  | finalizeConfigUpdate id =>
    simp only [Admin.dispatch, finalizeConfigUpdate, storeConfigUpdate, yields_steps, yields_config,
      yields_guard_requireNotPaused, yields_load, yields_onAdmin]
    intro _ p hp _ henough
    cases hkey : p.key
    simp only [yields_setConfigEntry]
    exact .finalizedUpdate hp henough
  | proposeGovernanceAction proposer action description =>
    simp only [Admin.dispatch, proposeGovernanceAction, yields_steps, yields_isAdmin, yields_requireAuth,
      yields_requireNextId, yields_u64, yields_onAdmin]
    exact fun _ _ _ _ _ => .queued fun _ => ⟨rfl, rfl⟩
  | approveGovernanceAction admin id =>
    simp only [Admin.dispatch, approveGovernanceAction, storeGovernanceProposal, requireOpen, requireUndecided,
      yields_steps, yields_config, yields_isAdmin, yields_requireAuth, yields_load, yields_onAdmin]
    exact fun _ hadmin p hp _ _ hnew _ => .approvedQueued (of_decide_eq_true hadmin) hp hnew
  | rejectGovernanceAction admin id =>
    simp only [Admin.dispatch, rejectGovernanceAction, storeGovernanceProposal, requireOpen, requireUndecided,
      yields_steps, yields_config, yields_isAdmin, yields_requireAuth, yields_load, yields_onAdmin]
    intro _ _ p hp _ _ _ _
    refine .rejectedQueued hp fun hstatus => ?_
    split at hstatus
    · cases hstatus
    · exact hstatus
  | executeGovernanceAction id =>
    simp only [Admin.dispatch, executeGovernanceAction, storeGovernanceProposal, requireOpen, yields_steps, yields_load,
      yields_onAdmin]
    intro p hp _ _ hstatus _ _
    exact (done_internal p.action).mono fun _ t hdone => .executedQueued hp hstatus hdone
  | cancelGovernanceAction caller id =>
    simp only [Admin.dispatch, cancelGovernanceAction, storeGovernanceProposal, requireOpen, yields_steps,
      yields_isAdmin, yields_requireAuth, yields_load, yields_onAdmin]
    exact fun _ p hp _ _ _ => .cancelledQueued hp
  | proposeConfigChange proposer cfg =>
    simp only [Admin.dispatch, proposeConfigChange, addTimelock, yields_steps, yields_isAdmin, yields_requireAuth,
      yields_guard_requireNotPaused, yields_validateAdminConfig, yields_u64, yields_requireNextId, yields_onAdmin]
    intro _ _ _ hvalid _ _
    have hthreshold := hvalid.threshold
    exact .proposedChange hvalid.admins.1 (by omega) fun _ => rfl
  | executeConfigChange id =>
    simp only [Admin.dispatch, executeConfigChange, yields_steps, yields_guard_requireNotPaused, yields_load,
      yields_u64]
    intro _ p hp _ _ _ _ _
    obtain ⟨id, action, proposer, eta, executed, cancelled⟩ := p
    cases action with
    | setConfig cfg =>
      simp only [storeTimelock, yields_bind, yields_onAdmin, yields_setConfigEntry]
      exact .executedChange hp rfl
    | slash borrower => simp only [yields_fail]
  | cancelConfigChange signers id =>
    simp only [Admin.dispatch, cancelConfigChange, storeTimelock, yields_steps, yields_guard_requireNotPaused,
      yields_requireAdminApproval, yields_load, yields_onAdmin]
    exact fun _ _ p hp _ => .cancelledTimelock (.inl ⟨signers, rfl⟩) hp
  | cancelSlashProposal caller id =>
    simp only [Admin.dispatch, cancelSlashProposal, storeTimelock, yields_steps, yields_requireAuth, yields_load,
      yields_onAdmin]
    exact fun _ p hp _ _ => .cancelledTimelock (.inr ⟨caller, rfl⟩) hp
  | proposeSlashThreshold proposer newThreshold =>
    simp only [Admin.dispatch, proposeSlashThreshold, requireParticipant, requireGovernanceParticipant, yields_steps,
      yields_config, yields_requireAuth, yields_guard_requireNotPaused, yields_requireNextId, yields_onAdmin]
    exact fun _ _ _ hbounds _ => .proposedRate hbounds fun _ => rfl
  | finalizeSlashThreshold id =>
    simp only [Admin.dispatch, finalizeSlashThreshold, storeSlashThreshold, yields_steps, yields_config,
      yields_guard_requireNotPaused, yields_load, yields_u64, yields_onAdmin, yields_ite, yields_setConfigEntry]
    intro _ p hp _ _ _ _ _
    exact ⟨fun hwon => .finalizedRate hp (.inl ⟨hwon, rfl⟩), fun hlost => .finalizedRate hp (.inr ⟨hlost, rfl⟩)⟩
  | finalizeAdminRemoval id =>
    simp only [Admin.dispatch, finalizeAdminRemoval, storeAdminRemoval, yields_steps, yields_config,
      yields_guard_requireNotPaused, yields_load, yields_onAdmin, yields_setConfigEntry]
    exact fun _ p hp _ _ hmem henough => .finalizedRemoval hp hmem henough
  | _ =>
    refine (other_effect rfl).mono ?_
    rintro _ t ⟨halike, hrecords, hrates⟩
    exact .other rfl halike hrecords hrates

end

end Admin

/-! ## Steps -/

/-- A condition on the calls of the administration. -/
def OnAdmin (ok : AdminStore → AdminOp → Prop) (s : ProtocolState) : ProtocolOp → Prop
  | .admin op => ok s.store.admin op
  | .core _ => True

instance {ok : AdminStore → AdminOp → Prop} [∀ a op, Decidable (ok a op)] (s : ProtocolState) :
    ∀ op : ProtocolOp, Decidable (OnAdmin ok s op)
  | .admin op => inferInstanceAs (Decidable (ok s.store.admin op))
  | .core _ => inferInstanceAs (Decidable True)

/-- A call of the core leaves the records of the administration alone. -/
theorem admin_of_core {s : ProtocolState} {signers : List Address} {op : Op} {t : ProtocolStore}
    (he : protocol.exec s signers (.core op) = some t) : t.admin = s.store.admin := by
  have hyields : Yields (ProtocolOp.invoke (.core op)) (protocol.context s.world signers) s.store fun _ t =>
      t.admin = s.store.admin := by
    rw [yields_invoke_core]
    intro _ _ _
    rfl
  exact Component.exec_yields (Q := fun t => t.admin = s.store.admin) hyields he

theorem effect_of_admin {s : ProtocolState} {signers : List Address} {op : AdminOp} {t : ProtocolStore}
    (he : protocol.exec s signers (.admin op) = some t) : AdminEffect s.store.admin op t.admin := by
  have hyields : Yields (ProtocolOp.invoke (.admin op)) (protocol.context s.world signers) s.store fun _ t =>
      AdminEffect s.store.admin op t.admin := by
    rw [yields_invoke_admin]
    exact Admin.effect_of_dispatch op
  exact Component.exec_yields (Q := fun t => AdminEffect s.store.admin op t.admin) hyields he

theorem admin_of_drift {w w' : AdminWorld} {x x' : ProtocolStore} (h : protocol.drift w x w' x') :
    ∃ settings, x'.admin = { x.admin with settings } := by
  cases h with
  | elsewhere => exact ⟨_, rfl⟩

/-! ## Runs -/

/-- The call of the administration that went through, with the records it found. -/
def adminCall (s : ProtocolState) (e : ProtocolEvent) : Option (AdminStore × AdminOp) :=
  match protocol.done s e with
  | some (.admin op, _) => some (s.store.admin, op)
  | _ => none

/-- The calls of the administration that went through, newest first. -/
def adminCalls (h : List (ProtocolState × ProtocolEvent)) : List (AdminStore × AdminOp) :=
  h.filterMap fun e => adminCall e.1 e.2

section

variable {h : List (ProtocolState × ProtocolEvent)} {s : ProtocolState}

theorem adminCalls_admin {signers : List Address} {op : AdminOp} {t : ProtocolStore}
    (he : protocol.exec s signers (.admin op) = some t) :
    adminCalls ((s, .call signers (.admin op)) :: h) = (s.store.admin, op) :: adminCalls h := by
  simp [adminCalls, adminCall, Component.done_call he]

theorem adminCalls_core {signers : List Address} {op : Op} {t : ProtocolStore}
    (he : protocol.exec s signers (.core op) = some t) :
    adminCalls ((s, .call signers (.core op)) :: h) = adminCalls h := by
  simp [adminCalls, adminCall, Component.done_call he]

theorem adminCalls_idle {e : ProtocolEvent} (hnone : protocol.done s e = none) :
    adminCalls ((s, e) :: h) = adminCalls h := by
  simp [adminCalls, adminCall, hnone]

end

namespace ProtocolHistory

variable {P : List (AdminStore × AdminOp) → AdminStore → Prop} {h : List (ProtocolState × ProtocolEvent)}
  {s : ProtocolState}

/-- Where a call of the administration keeps `P` exactly under `ok`, a run keeps
it exactly when all its calls meet `ok`. Both may look at the calls before. -/
theorem calls_iff (ok : List (AdminStore × AdminOp) → AdminStore → AdminOp → Prop) (h0 : ∀ d : Deployment, P [] d.admin)
    (hsettings : ∀ calls a settings, P calls a → P calls { a with settings })
    (heffect : ∀ {h s op a'}, ProtocolHistory h s → P (adminCalls h) s.store.admin → AdminEffect s.store.admin op a' →
      (P ((s.store.admin, op) :: adminCalls h) a' ↔ ok (adminCalls h) s.store.admin op)) (hr : ProtocolHistory h s) :
    Always (fun h s => P (adminCalls h) s.store.admin) h s ↔
      Throughout (fun h => protocol.WhenDone (OnAdmin (ok (adminCalls h)))) h := by
  obtain ⟨d, w, bank, hr⟩ := hr
  refine Component.always_iff (h0 d) (fun {h s signers op t} hr hp he => ?_) ?_ hr
  · cases op with
    | core op =>
      rw [adminCalls_core he, admin_of_core he]
      exact iff_of_true hp trivial
    | admin op =>
      rw [adminCalls_admin he]
      exact heffect ⟨d, w, bank, hr⟩ hp (effect_of_admin he)
  · rintro h s e s' hp hnone (rfl | hdrift)
    · rw [adminCalls_idle hnone]
      exact hp
    · obtain ⟨settings, hsame⟩ := admin_of_drift hdrift
      rw [adminCalls_idle hnone, hsame]
      exact hsettings _ _ _ hp

/-- What every call of the administration keeps holds in every run. -/
theorem calls_always (h0 : ∀ d : Deployment, P [] d.admin)
    (hsettings : ∀ calls a settings, P calls a → P calls { a with settings })
    (heffect : ∀ {h s op a'}, ProtocolHistory h s → P (adminCalls h) s.store.admin → AdminEffect s.store.admin op a' →
      P ((s.store.admin, op) :: adminCalls h) a') (hr : ProtocolHistory h s) : P (adminCalls h) s.store.admin := by
  have hiff := calls_iff (fun _ _ _ => True) h0 hsettings
    (fun hr hp he => iff_of_true (heffect hr hp he) trivial) hr
  refine (hiff.2 ?_).last
  refine Along.throughout fun e _ d hd => ?_
  cases hop : d.1 <;> trivial

/-- An invariant of the records. -/
theorem admin_always {I : AdminStore → Prop} (h0 : ∀ d : Deployment, I d.admin)
    (hsettings : ∀ a settings, I a → I { a with settings }) (heffect : ∀ {a op a'}, I a → AdminEffect a op a' → I a')
    (hr : ProtocolHistory h s) : I s.store.admin :=
  hr.calls_always (P := fun _ => I) h0 (fun _ => hsettings) fun _ => heffect

/-- Where a call keeps `Q` exactly under `ok`, whatever happened before. -/
theorem admin_iff {I Q : AdminStore → Prop} {ok : AdminStore → AdminOp → Prop}
    (hI : ∀ {h s}, ProtocolHistory h s → I s.store.admin) (h0 : ∀ d : Deployment, Q d.admin)
    (hsettings : ∀ a settings, Q a → Q { a with settings })
    (heffect : ∀ {a op a'}, I a → Q a → AdminEffect a op a' → (Q a' ↔ ok a op)) (hr : ProtocolHistory h s) :
    Always (fun _ s => Q s.store.admin) h s ↔ Along (protocol.WhenDone (OnAdmin ok)) h := by
  rw [along_iff_throughout]
  exact hr.calls_iff (P := fun _ => Q) (fun _ => ok) h0 (fun _ => hsettings) fun hr => heffect (hI hr)

end ProtocolHistory

end QuorumCredit
