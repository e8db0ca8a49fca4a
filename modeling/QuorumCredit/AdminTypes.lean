import QuorumCredit.Helpers
import QuorumCredit.Host.Under
/-!
# What the administration keeps

The data types of `types.rs` behind `admin.rs`, `rbac.rs` and the proposals of
`governance.rs`, and the storage these work on. To the rest of the contract this
storage is part of the world; here it is what the calls write.
-/

open Host Function

namespace QuorumCredit

/-! ## Constants -/

def successorClaimTimelockSecs : Nat := 24 * 60 * 60
def defaultGovernanceTimelockDelay : Nat := 24 * 60 * 60
def defaultGovernanceExecutionWindow : Nat := 7 * 24 * 60 * 60
def timelockExpiry : Nat := 72 * 60 * 60

/-! ## Roles -/

inductive AdminPermission where
  | slash | pause | updateConfig | manageFees | readAnalytics
deriving DecidableEq, Repr

/-- The `AdminAction` of `rbac.rs`. -/
inductive AdminAction where
  | addAdmin | removeAdmin | rotateAdmin | setAdminThreshold | pause | unpause | upgrade | setConfig | updateConfig
  | updateFees | slash | revokeAdmin | manageWhitelist | manageBlacklisted | setProtocolFee | setLoanParams
  | setReputationNft | manageDynamicSlash | emergencyUnpause
deriving DecidableEq, Repr

def getRequiredPermission : AdminAction → AdminPermission
  | .addAdmin | .removeAdmin | .rotateAdmin | .setAdminThreshold | .revokeAdmin | .manageWhitelist => .updateConfig
  | .pause | .unpause | .emergencyUnpause => .pause
  | .upgrade => .updateConfig
  | .setConfig | .updateConfig | .setLoanParams | .setReputationNft | .manageDynamicSlash => .updateConfig
  | .updateFees | .setProtocolFee => .manageFees
  | .slash => .slash
  | .manageBlacklisted => .updateConfig

def checkAdminPermission : AdminRole → AdminPermission → Bool
  | .superAdmin, _ => true
  | .treasurer, permission => permission = .updateConfig ∨ permission = .manageFees
  | .monitor, permission => permission = .readAnalytics
  | .slasher, permission => permission = .slash ∨ permission = .readAnalytics
  | .governanceOperator, permission => permission = .updateConfig

structure MultiTierAdminThresholds where
  standardThreshold : Nat
  highRiskThreshold : Nat
  criticalThreshold : Nat
deriving DecidableEq, Repr

inductive AdminOperationType where
  | standard | highRisk | critical
deriving DecidableEq, Repr

def MultiTierAdminThresholds.getThreshold (t : MultiTierAdminThresholds) : AdminOperationType → Nat
  | .standard => t.standardThreshold
  | .highRisk => t.highRiskThreshold
  | .critical => t.criticalThreshold

/-! ## Configuration -/

/-- `Config`, with the fields the administration reads or writes besides. -/
structure AdminConfig extends Config where
  adminWhitelist : List Address
  adminBlacklist : List Address
  maxVouchers : Nat
  votingPeriodSeconds : Nat
  liquidityMiningRateBps : Nat
  successorAdmin : Option Address
  dynamicSlashThreshold : Bool
  loanSizeSlashEnabled : Bool
  loanSizeSlashMaxBps : Int
  confirmationRequired : Bool
  adminCompensationBps : Nat
  removalVoteThreshold : Nat
  insurancePremiumBps : Nat
  insuranceMaxPayoutBps : Nat

/-- Settings with instance keys of their own, the blacklist, and the code that runs. -/
structure AdminSettings where
  protocolFeeBps : Nat
  feeTreasury : Option Address
  minStake : Int
  maxLoanAmount : Int
  minVouchers : Nat
  maxVouchersPerBorrower : Nat
  prepaymentPenaltyBps : Nat
  reputationNft : Option Address
  whitelistEnabled : Bool
  blacklisted : Address → Bool
  wasmHash : Nat

/-! ## Proposals -/

inductive GovernanceAction where
  | pause
  | unpause
  | upgrade (newWasmHash : Nat)
  | setProtocolFee (feeBps : Nat)
  | setFeeTreasury (treasury : Address)
  | addAllowedToken (token : Address)
  | removeAllowedToken (token : Address)
  | setMinStake (amount : Int)
  | setMaxLoanAmount (amount : Int)
  | setMinVouchers (count : Nat)
  | setMaxVouchersPerBorrower (count : Nat)
  | setMaxLoanToStakeRatio (ratio : Nat)
  | setGracePeriod (period : Nat)
  | setYieldBps (yieldBps : Int)
  | setSlashBps (slashBps : Int)
  | setAdminThreshold (threshold : Nat)
  | addAdmin (newAdmin : Address)
  | removeAdmin (adminToRemove : Address)
  | rotateAdmin (oldAdmin newAdmin : Address)
  | setReputationNft (nftContract : Address)
  | setWhitelistEnabled (enabled : Bool)
  | blacklistBorrower (borrower : Address)
  | setPrepaymentPenaltyBps (penaltyBps : Nat)
  | setDynamicSlashThreshold (enabled : Bool)
  | setLoanSizeSlashEnabled (enabled : Bool)
  | setLoanSizeSlashMaxBps (maxBps : Int)
  | setSuccessorAdmin (successor : Option Address)
  | setConfirmationRequired (enabled : Bool)
  | setAdminCompensationBps (compensationBps : Nat)
  | setRemovalVoteThreshold (threshold : Nat)
  | setRateLimitConfig (rateLimitConfig : RateLimitConfig)

structure AdminActionProposal where
  id : Nat
  actionType : GovernanceAction
  proposer : Address
  approvals : List Address
  createdAt : Nat
  executed : Bool

inductive ConfigUpdateKey where
  | adminThreshold
deriving DecidableEq, Repr

structure ConfigUpdateProposal where
  id : Nat
  proposer : Address
  key : ConfigUpdateKey
  newValue : Nat
  approvals : List Address
  executed : Bool

inductive GovernanceProposalStatus where
  | pending | approved | executed | cancelled | expired
deriving DecidableEq, Repr

structure GovernanceProposal where
  id : Nat
  action : GovernanceAction
  proposer : Address
  approvals : List Address
  rejections : List Address
  status : GovernanceProposalStatus
  createdAt : Nat
  executableAt : Nat
  expiresAt : Nat
  description : String
  executedAt : Option Nat

structure GovernanceQueueConfig where
  timelockDelay : Nat
  executionWindow : Nat
  requireMultisig : Bool

inductive TimelockAction where
  | slash (borrower : Address)
  | setConfig (cfg : AdminConfig)

structure TimelockProposal where
  id : Nat
  action : TimelockAction
  proposer : Address
  eta : Nat
  executed : Bool
  cancelled : Bool

structure SlashThresholdProposal where
  id : Nat
  proposer : Address
  proposedThreshold : Int
  proposedAt : Nat
  approveVotes : Nat
  rejectVotes : Nat
  voters : List Address
  finalized : Bool

structure AdminRemovalProposal where
  id : Nat
  adminToRemove : Address
  proposer : Address
  approveVotes : Nat
  rejectVotes : Nat
  voters : List Address
  proposedAt : Nat
  finalized : Bool

structure WithdrawalTimelock where
  id : Nat
  voucher : Address
  borrower : Address
  amount : Int
  token : Address
  eta : Nat
  executed : Bool
  cancelled : Bool

/-- The entries under one numbered key, and the counter kept beside them. -/
structure Table (P : Type) where
  entry : Nat → Option P
  counter : Nat

namespace Table

variable {P : Type}

def empty : Table P := ⟨fun _ => none, 0⟩

/-- The entry under an id stored anew. -/
def store (t : Table P) (id : Nat) (p : P) : Table P := { t with entry := update t.entry id (some p) }

/-- An entry stored under the next id. -/
def add (t : Table P) (make : Nat → P) : Table P :=
  ⟨update t.entry (t.counter + 1) (some (make (t.counter + 1))), t.counter + 1⟩

variable (t : Table P) (id : Nat) (p : P)

@[simp] theorem store_counter : (t.store id p).counter = t.counter := rfl

@[simp] theorem store_entry_self : (t.store id p).entry id = some p := update_self ..

theorem store_entry_of_ne {i : Nat} (h : i ≠ id) : (t.store id p).entry i = t.entry i := update_of_ne h ..

variable (make : Nat → P)

@[simp] theorem add_counter : (t.add make).counter = t.counter + 1 := rfl

@[simp] theorem add_entry_next : (t.add make).entry (t.counter + 1) = some (make (t.counter + 1)) := update_self ..

theorem add_entry_of_ne {i : Nat} (h : i ≠ t.counter + 1) : (t.add make).entry i = t.entry i := update_of_ne h ..

variable {t id p make}

/-- What is stored under an id is what was stored there before, unless it was stored just now. -/
theorem entry_of_store {i : Nat} {q : P} (h : (t.store id p).entry i = some q) :
    i = id ∧ q = p ∨ i ≠ id ∧ t.entry i = some q := by
  by_cases hi : i = id
  · subst hi
    rw [store_entry_self] at h
    exact .inl ⟨rfl, (Option.some.inj h).symm⟩
  · rw [store_entry_of_ne t id p hi] at h
    exact .inr ⟨hi, h⟩

theorem entry_of_add {i : Nat} {q : P} (h : (t.add make).entry i = some q) :
    i = t.counter + 1 ∧ q = make i ∨ i ≠ t.counter + 1 ∧ t.entry i = some q := by
  by_cases hi : i = t.counter + 1
  · subst hi
    rw [add_entry_next] at h
    exact .inl ⟨rfl, (Option.some.inj h).symm⟩
  · rw [add_entry_of_ne t make hi] at h
    exact .inr ⟨hi, h⟩

end Table

/-! ## Storage -/

structure AdminStore where
  config : AdminConfig
  revokedAdmin : Address → Bool
  adminRole : Address → Option AdminRole
  legacyAdminMigrationComplete : Bool
  multiTierThresholds : Option MultiTierAdminThresholds
  pendingAdmin : Option Address
  successorAdminClaimableAt : Option Nat
  settings : AdminSettings
  adminActions : Table AdminActionProposal
  configUpdates : Table ConfigUpdateProposal
  governanceQueueConfig : Option GovernanceQueueConfig
  governanceProposals : Table GovernanceProposal
  timelocks : Table TimelockProposal
  slashThresholds : Table SlashThresholdProposal
  adminRemovals : Table AdminRemovalProposal
  withdrawalTimelocks : Table WithdrawalTimelock

/-- What the administration's functions work on. `authorised` is not stored: it
holds the addresses that have authorised the running invocation, each of which
the host accepts once. -/
structure Governed where
  admin : AdminStore
  access : Access
  bank : Ledger
  authorised : List Address

instance : Host.Part Governed Access where
  get := Governed.access
  set a g := { g with access := a }

/-- The world, with what the administration's functions read besides: the zero
account, which addresses are token contracts, which code is uploaded, and a
constant the source uses without defining it. -/
structure AdminWorld extends World where
  zeroAccount : Address
  isToken : Address → Bool
  wasmUploaded : Nat → Bool
  configTimelockSeconds : Nat

structure AdminContext extends AdminWorld where
  signers : List Address

/-- The world with what the administration has stored. -/
def AdminStore.world (a : AdminStore) (w : World) : World :=
  { w with
    config := a.config.toConfig
    revokedAdmin := a.revokedAdmin
    adminRole := a.adminRole
    blacklisted := a.settings.blacklisted
    reputationNft := a.settings.reputationNft
    vouchConfig :=
      { w.vouchConfig with
        whitelistEnabled := a.settings.whitelistEnabled
        minStake := a.settings.minStake
        maxVouchersPerBorrower := a.settings.maxVouchersPerBorrower } }

/-- A function of the administration. -/
abbrev AdminTx (α : Type) := Tx AdminContext Failure Governed α

/-- The context in which the rest of the contract runs. -/
def Governed.context (ctx : AdminContext) (g : Governed) : Context :=
  { g.admin.world ctx.toWorld with signers := ctx.signers }

/-- A guard of `helpers.rs`, called by the administration. -/
def guard {α : Type} (x : Contract Access α) : AdminTx α := under Governed.context (zoom x)

end QuorumCredit
