import QuorumCredit.Contract
import QuorumCredit.GovernanceQueue
import QuorumCredit.Pause
import QuorumCredit.Host.Component
/-!
# The contract under administration

The lending core and the administration as one system. What the administration
stores is the world the core's calls run in; both work on the pause and on the
same balances. A run starts from `initialize`, and whatever neither of the two
does (time, transfers elsewhere, the calls that are not modelled) leaves the
administration's records alone and may end a thaw whose window is over.
-/

open Host Function

namespace QuorumCredit

/-! ## Calls -/

/-- The calls of the administration. Those with a like-named action in the
governance queue are one, `direct`. -/
inductive AdminOp where
  | direct (adminSigners : List Address) (action : GovernanceAction)
  | beginThaw (adminSigners : List Address)
  | pauseWithThaw (adminSigners : List Address) (thawDuration : Nat)
  | acknowledgeCircuitBreaker (adminSigners : List Address)
  | emergencyPause (adminSigners : List Address)
  | emergencyUnpause (adminSigners : List Address)
  | setDefaultRateThreshold (adminSigners : List Address) (newThreshold : Nat)
  | setConfig (adminSigners : List Address) (cfg : AdminConfig)
  | updateConfig (adminSigners : List Address) (yieldBps slashBps : Option Int)
  | batchUpdateConfig (adminSigners : List Address) (u : Admin.ConfigUpdate)
  | setInsuranceFundPremiumBps (adminSigners : List Address) (premiumBps : Nat)
  | setInsuranceMaxPayoutBps (adminSigners : List Address) (maxPayoutBps : Nat)
  | setInsurancePremiumBps (adminSigners : List Address) (premiumBps : Nat)
  | setMaxVouchersPerLoan (adminSigners : List Address) (max : Nat)
  | setupRoleBasedRateLimits (adminSigners : List Address)
  | addToAdminWhitelist (adminSigners : List Address) (address : Address)
  | removeFromAdminWhitelist (adminSigners : List Address) (address : Address)
  | addToAdminBlacklist (adminSigners : List Address) (address : Address)
  | removeFromAdminBlacklist (adminSigners : List Address) (address : Address)
  | proposeAdmin (adminSigners : List Address) (newAdmin : Address)
  | acceptAdmin
  | cancelSuccessorAdmin (adminSigners : List Address)
  | claimSuccessorAdmin
  | revokeAdmin (existingAdmins : List Address) (targetAdmin : Address)
  | setMultiTierThresholds (adminSigners : List Address) (thresholds : MultiTierAdminThresholds)
  | assignAdminRole (adminSigners : List Address) (targetAdmin : Address) (role : AdminRole)
  | migrateLegacyAdminsToSuperadmin (adminSigners : List Address)
  | setGovernanceQueueConfig (adminSigners : List Address) (queueConfig : GovernanceQueueConfig)
  | proposeAdminAction (proposer : Address) (actionType : GovernanceAction)
  | approveAdminAction (admin : Address) (actionId : Nat)
  | executeAdminAction (actionId : Nat)
  | proposeConfigUpdate (proposer : Address) (key : ConfigUpdateKey) (newValue : Nat)
  | approveConfigUpdate (admin : Address) (proposalId : Nat)
  | finalizeConfigUpdate (proposalId : Nat)
  | proposeGovernanceAction (proposer : Address) (action : GovernanceAction) (description : String)
  | approveGovernanceAction (admin : Address) (proposalId : Nat)
  | rejectGovernanceAction (admin : Address) (proposalId : Nat)
  | executeGovernanceAction (proposalId : Nat)
  | cancelGovernanceAction (caller : Address) (proposalId : Nat)
  | proposeConfigChange (proposer : Address) (newConfig : AdminConfig)
  | executeConfigChange (proposalId : Nat)
  | cancelConfigChange (adminSigners : List Address) (proposalId : Nat)
  | cancelSlashProposal (caller : Address) (proposalId : Nat)
  | proposeSlashThreshold (proposer : Address) (newThreshold : Int)
  | voteSlashThreshold (voter : Address) (proposalId : Nat) (approve : Bool)
  | finalizeSlashThreshold (proposalId : Nat)
  | proposeAdminRemoval (proposer adminToRemove : Address)
  | voteAdminRemoval (voter : Address) (proposalId : Nat) (approve : Bool)
  | finalizeAdminRemoval (proposalId : Nat)
  | queueWithdrawal (voucher borrower : Address) (amount : Int) (token : Address) (delaySecs : Nat)
  | executeWithdrawal (lockId : Nat)

namespace Admin

/-- The function behind each call. -/
def dispatch : AdminOp → AdminTx Unit
  | .direct signers action => directCall signers action
  | .beginThaw signers => beginThaw signers
  | .pauseWithThaw signers thawDuration => pauseWithThaw signers thawDuration
  | .acknowledgeCircuitBreaker signers => acknowledgeCircuitBreaker signers
  | .emergencyPause signers => emergencyPause signers
  | .emergencyUnpause signers => emergencyUnpause signers
  | .setDefaultRateThreshold signers newThreshold => setDefaultRateThreshold signers newThreshold
  | .setConfig signers cfg => setConfig signers cfg
  | .updateConfig signers yieldBps slashBps => updateConfig signers yieldBps slashBps
  | .batchUpdateConfig signers u => batchUpdateConfig signers u
  | .setInsuranceFundPremiumBps signers premiumBps => setInsuranceFundPremiumBps signers premiumBps
  | .setInsuranceMaxPayoutBps signers maxPayoutBps => setInsuranceMaxPayoutBps signers maxPayoutBps
  | .setInsurancePremiumBps signers premiumBps => setInsurancePremiumBps signers premiumBps
  | .setMaxVouchersPerLoan signers max => setMaxVouchersPerLoan signers max
  | .setupRoleBasedRateLimits signers => setupRoleBasedRateLimits signers
  | .addToAdminWhitelist signers address => addToAdminWhitelist signers address
  | .removeFromAdminWhitelist signers address => removeFromAdminWhitelist signers address
  | .addToAdminBlacklist signers address => addToAdminBlacklist signers address
  | .removeFromAdminBlacklist signers address => removeFromAdminBlacklist signers address
  | .proposeAdmin signers newAdmin => proposeAdmin signers newAdmin
  | .acceptAdmin => acceptAdmin
  | .cancelSuccessorAdmin signers => cancelSuccessorAdmin signers
  | .claimSuccessorAdmin => claimSuccessorAdmin
  | .revokeAdmin existingAdmins targetAdmin => revokeAdmin existingAdmins targetAdmin
  | .setMultiTierThresholds signers thresholds => setMultiTierThresholds signers thresholds
  | .assignAdminRole signers targetAdmin role => assignAdminRole signers targetAdmin role
  | .migrateLegacyAdminsToSuperadmin signers => migrateLegacyAdminsToSuperadmin signers
  | .setGovernanceQueueConfig signers queueConfig => setGovernanceQueueConfig signers queueConfig
  | .proposeAdminAction proposer actionType => proposeAdminAction proposer actionType
  | .approveAdminAction admin actionId => approveAdminAction admin actionId
  | .executeAdminAction actionId => executeAdminAction actionId
  | .proposeConfigUpdate proposer key newValue => proposeConfigUpdate proposer key newValue
  | .approveConfigUpdate admin proposalId => approveConfigUpdate admin proposalId
  | .finalizeConfigUpdate proposalId => finalizeConfigUpdate proposalId
  | .proposeGovernanceAction proposer action description => proposeGovernanceAction proposer action description
  | .approveGovernanceAction admin proposalId => approveGovernanceAction admin proposalId
  | .rejectGovernanceAction admin proposalId => rejectGovernanceAction admin proposalId
  | .executeGovernanceAction proposalId => executeGovernanceAction proposalId
  | .cancelGovernanceAction caller proposalId => cancelGovernanceAction caller proposalId
  | .proposeConfigChange proposer newConfig => proposeConfigChange proposer newConfig
  | .executeConfigChange proposalId => executeConfigChange proposalId
  | .cancelConfigChange signers proposalId => cancelConfigChange signers proposalId
  | .cancelSlashProposal caller proposalId => cancelSlashProposal caller proposalId
  | .proposeSlashThreshold proposer newThreshold => proposeSlashThreshold proposer newThreshold
  | .voteSlashThreshold voter proposalId approve => voteSlashThreshold voter proposalId approve
  | .finalizeSlashThreshold proposalId => finalizeSlashThreshold proposalId
  | .proposeAdminRemoval proposer adminToRemove => proposeAdminRemoval proposer adminToRemove
  | .voteAdminRemoval voter proposalId approve => voteAdminRemoval voter proposalId approve
  | .finalizeAdminRemoval proposalId => finalizeAdminRemoval proposalId
  | .queueWithdrawal voucher borrower amount token delaySecs => queueWithdrawal voucher borrower amount token delaySecs
  | .executeWithdrawal lockId => executeWithdrawal lockId

end Admin

inductive ProtocolOp where
  | core (op : Op)
  | admin (op : AdminOp)

/-! ## Storage -/

/-- Everything stored, and who has authorised the running invocation. -/
structure ProtocolStore where
  admin : AdminStore
  core : Store
  authorised : List Address

namespace ProtocolStore

/-- What the administration's functions work on. -/
def governed (s : ProtocolStore) : Governed :=
  { admin := s.admin, access := s.core.access, bank := s.core.vault.bank, authorised := s.authorised }

def setGoverned (g : Governed) (s : ProtocolStore) : ProtocolStore :=
  { admin := g.admin
    core := { s.core with access := g.access, vault := { s.core.vault with bank := g.bank } }
    authorised := g.authorised }

end ProtocolStore

instance : Host.Part ProtocolStore Governed where
  get := ProtocolStore.governed
  set := ProtocolStore.setGoverned
instance : Host.Part ProtocolStore Store where
  get := ProtocolStore.core
  set x s := { s with core := x }

/-- The function behind each call of the contract. -/
def ProtocolOp.dispatch : ProtocolOp → Tx AdminContext Failure ProtocolStore Unit
  | .core op => under (fun ctx s => s.governed.context ctx) (zoom (QuorumCredit.dispatch op))
  | .admin op => zoom (Admin.dispatch op)

/-- An invocation starts with nothing authorised. -/
def ProtocolOp.invoke (op : ProtocolOp) : Tx AdminContext Failure ProtocolStore Unit := do
  alter fun s => { s with authorised := [] }
  op.dispatch

section

variable (ctx : AdminContext) (s : ProtocolStore) (Q : Unit → ProtocolStore → Prop)

/-- A call of the core runs under the stored configuration and writes nothing of the administration. -/
theorem yields_invoke_core (op : Op) :
    Yields (ProtocolOp.invoke (.core op)) ctx s Q ↔
      Yields (QuorumCredit.dispatch op) (s.governed.context ctx) s.core fun a core =>
        Q a { s with core, authorised := [] } := by
  simp only [ProtocolOp.invoke, ProtocolOp.dispatch, yields_steps, yields_under, yields_zoom]
  rfl

theorem yields_invoke_admin (op : AdminOp) :
    Yields (ProtocolOp.invoke (.admin op)) ctx s Q ↔
      Yields (Admin.dispatch op) ctx { s.governed with authorised := [] } fun a g => Q a (s.setGoverned g) := by
  simp only [ProtocolOp.invoke, ProtocolOp.dispatch, yields_steps, yields_zoom]
  rfl

end

/-! ## Steps -/

/-- The two agree on the pause and on the circuit breaker. -/
structure Access.PauseAlike (a b : Access) : Prop where
  pauseMode : b.pauseMode = a.pauseMode
  paused : b.paused = a.paused
  thawState : b.thawState = a.thawState
  lastTriggered : b.circuitBreakerLastTriggered = a.circuitBreakerLastTriggered
  history : b.circuitBreakerHistory = a.circuitBreakerHistory
  acknowledged : b.circuitBreakerAcknowledged = a.circuitBreakerAcknowledged

/-- What becomes of the pause elsewhere: nothing, or a thaw that is over is ended. -/
def Access.Drift (now : Nat) (a b : Access) : Prop := a.PauseAlike b ∨ (a.settled now).PauseAlike b

/-- What happens elsewhere. -/
inductive ProtocolDrift (w : AdminWorld) (s : ProtocolStore) (w' : AdminWorld) : ProtocolStore → Prop
  | elsewhere {settings access bank} : w.now ≤ w'.now → w'.contract = w.contract → s.core.access.Drift w'.now access →
      ProtocolDrift w s w'
        { s with
          admin := { s.admin with settings }
          core := { s.core with access, vault := { s.core.vault with bank } } }

/-- The contract as a component: nobody else writes its storage. -/
def protocol : Component AdminWorld (List Address) AdminContext Failure ProtocolStore ProtocolOp where
  run := ProtocolOp.invoke
  context w signers := { w with signers }
  drift := ProtocolDrift

abbrev ProtocolState := Situated AdminWorld ProtocolStore

abbrev ProtocolEvent := Event AdminWorld (List Address) ProtocolStore ProtocolOp

/-! ## The initial state -/

/-- The arguments of `initialize`, which `validate_admin_config` has accepted,
the code that is deployed, and three values the source uses without giving them. -/
structure Deployment where
  admins : List Address
  adminThreshold : Nat
  token : Address
  wasmHash : Nat
  votingPeriodSeconds : Nat
  maxLoanToCollateralRatio : Nat
  maxVouchersPerBorrower : Nat
  nodup : admins.Nodup
  threshold : 1 ≤ adminThreshold ∧ adminThreshold ≤ admins.length

namespace Deployment

variable (d : Deployment)

def config : AdminConfig :=
  { admins := d.admins, adminThreshold := d.adminThreshold, token := d.token, allowedTokens := [], yieldBps := 200
    slashBps := 5000, minLoanAmount := 100000, loanDuration := 30 * 24 * 60 * 60, maxLoanToStakeRatio := 150
    maxLoanToCollateralRatio := d.maxLoanToCollateralRatio, gracePeriod := 0, prepaymentPenaltyBps := 0
    slashCooldownSeconds := 0, emergencyPauseEnabled := false, slashDelaySeconds := 0
    rateLimitConfig := ⟨60, 10, false⟩, recoveryPercentage := 0, liquidityTierYieldBonus := []
    maxPriorityFeeCapBps := maxPriorityFeeBps, defaultRateThreshold := 0, insuranceFundPremiumBps := 0
    maxRefinancesPerLoanChain := 3, refinanceCooldownSecs := 7 * 24 * 60 * 60, adminWhitelist := [],
      adminBlacklist := []
    maxVouchers := 100, votingPeriodSeconds := d.votingPeriodSeconds, liquidityMiningRateBps := 50,
      successorAdmin := none
    dynamicSlashThreshold := false, loanSizeSlashEnabled := false, loanSizeSlashMaxBps := 8000
    confirmationRequired := false, adminCompensationBps := 0, removalVoteThreshold := 0, insurancePremiumBps := 0
    insuranceMaxPayoutBps := 0 }

/-- Settings with keys of their own, before any is set. -/
def settings : AdminSettings :=
  { protocolFeeBps := 0, feeTreasury := none, minStake := 0, maxLoanAmount := 0, minVouchers := 0
    maxVouchersPerBorrower := d.maxVouchersPerBorrower, prepaymentPenaltyBps := 0, reputationNft := none
    whitelistEnabled := false, blacklisted := fun _ => false, wasmHash := d.wasmHash }

/-- What `initialize` stores: every admin is made super admin. -/
def admin : AdminStore :=
  { config := d.config, revokedAdmin := fun _ => false
    adminRole := fun a => if a ∈ d.admins then some .superAdmin else none
    legacyAdminMigrationComplete := false, multiTierThresholds := none, pendingAdmin := none
    successorAdminClaimableAt := none, settings := d.settings, adminActions := .empty, configUpdates := .empty
    governanceQueueConfig := none, governanceProposals := .empty, timelocks := .empty, slashThresholds := .empty
    adminRemovals := .empty, withdrawalTimelocks := .empty }

/-- The contract just after `initialize`, in a world with the given balances. -/
def start (w : AdminWorld) (bank : Ledger) : ProtocolState :=
  { world := w
    store := { admin := d.admin, core := (genesis w.toWorld bank).store, authorised := [] } }

end Deployment

/-- Three admins, two of whom approve. -/
def sampleDeployment : Deployment where
  admins := [1, 2, 3]
  adminThreshold := 2
  token := 100
  wasmHash := 0
  votingPeriodSeconds := 604800
  maxLoanToCollateralRatio := 50000
  maxVouchersPerBorrower := 50
  nodup := by decide
  threshold := by decide

/-- Tokens 100 and 101 are token contracts. -/
def sampleAdminWorld : AdminWorld :=
  { sampleWorld with
    zeroAccount := 999, isToken := fun a => a = 100 || a = 101, wasmUploaded := fun _ => true
    configTimelockSeconds := 86400 }

/-- Where the scripts of the administration start. -/
def adminStart : ProtocolState := sampleDeployment.start sampleAdminWorld sampleBank

/-- The history of the contract from some deployment on, and the state it has reached. -/
def ProtocolHistory (h : List (ProtocolState × ProtocolEvent)) (s : ProtocolState) : Prop :=
  ∃ (d : Deployment) (w : AdminWorld) (bank : Ledger), Run protocol.Step (d.start w bank) h s

theorem adminStart_history (calls : List (List Address × ProtocolOp)) :
    ProtocolHistory (protocol.trace adminStart [] calls) (protocol.play adminStart calls) :=
  ⟨sampleDeployment, sampleAdminWorld, sampleBank, protocol.run_play .nil calls⟩

end QuorumCredit
