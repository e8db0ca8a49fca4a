import QuorumCredit.Admin
/-!
# Proposals of the administration

The calls of `admin.rs` and `governance.rs` that collect approvals or votes for
a change over several invocations, and execute it in a later one: admin actions,
config updates, the governance queue, config changes, votes on the slash rate
and on the removal of an admin, and queued withdrawals.
-/

open Host Function

namespace QuorumCredit

namespace Admin

/-! ## Executing an action -/

def executeGovernanceActionInternal : GovernanceAction → AdminTx Unit
  | .pause => onAccess fun a => { a with paused := true, pauseMode := .paused }
  | .unpause => onAccess fun a => { a with paused := false, pauseMode := .none, thawState := none }
  | .upgrade newWasmHash => updateCurrentContractWasm newWasmHash
  | .setProtocolFee feeBps => do
    require (feeBps ≤ 10000) (.error .invalidAmount)
    onSettings fun s => { s with protocolFeeBps := feeBps }
  | .setFeeTreasury treasury => onSettings fun s => { s with feeTreasury := some treasury }
  | .addAllowedToken token => do
    let cfg ← config
    require (token ∉ cfg.allowedTokens ∧ token ≠ cfg.token) (.error .duplicateToken)
    setConfigEntry { cfg with allowedTokens := cfg.allowedTokens ++ [token] }
  | .removeAllowedToken token => do
    let cfg ← config
    require (token ∈ cfg.allowedTokens) (.error .tokenNotInAllowedList)
    setConfigEntry { cfg with allowedTokens := cfg.allowedTokens.erase token }
  | .setMinStake amount => do
    require (0 ≤ amount) (.error .invalidAmount)
    onSettings fun s => { s with minStake := amount }
  | .setMaxLoanAmount amount => do
    require (0 ≤ amount) (.error .invalidAmount)
    onSettings fun s => { s with maxLoanAmount := amount }
  | .setMinVouchers count => onSettings fun s => { s with minVouchers := count }
  | .setMaxVouchersPerBorrower count => do
    require (count ≠ 0) (.error .invalidAmount)
    onSettings fun s => { s with maxVouchersPerBorrower := count }
  | .setMaxLoanToStakeRatio ratio => do
    require (ratio ≠ 0) (.error .invalidAmount)
    let cfg ← config
    setConfigEntry { cfg with maxLoanToStakeRatio := ratio }
  | .setGracePeriod period => do
    let cfg ← config
    require (period ≤ cfg.loanDuration) (.error .invalidAmount)
    setConfigEntry { cfg with gracePeriod := period }
  | .setYieldBps yieldBps => do
    require (0 ≤ yieldBps ∧ yieldBps ≤ 10000) (.error .invalidBps)
    let cfg ← config
    setConfigEntry { cfg with yieldBps }
  | .setSlashBps slashBps => do
    require (0 < slashBps ∧ slashBps ≤ 10000) (.error .invalidAmount)
    let cfg ← config
    setConfigEntry { cfg with slashBps }
  | .setAdminThreshold threshold => do
    let cfg ← config
    require (threshold ≠ 0 ∧ threshold ≤ cfg.admins.length) (.error .invalidAdminThreshold)
    setConfigEntry { cfg with adminThreshold := threshold }
  | .addAdmin newAdmin => do
    let cfg ← config
    validateAdminMember newAdmin cfg
    require (newAdmin ∉ cfg.admins) (.error .alreadyInitialized)
    setConfigEntry { cfg with admins := cfg.admins ++ [newAdmin] }
  | .removeAdmin adminToRemove => do
    let cfg ← config
    require (adminToRemove ∈ cfg.admins) (.error .adminNotFound)
    let admins := cfg.admins.erase adminToRemove
    require (admins ≠ []) (.error .unauthorizedCaller)
    require (cfg.adminThreshold ≤ admins.length) (.error .invalidAdminThreshold)
    setConfigEntry { cfg with admins }
  | .rotateAdmin oldAdmin newAdmin => do
    let cfg ← config
    require (oldAdmin ≠ newAdmin) (.error .invalidAmount)
    validateAdminMember newAdmin cfg
    require (newAdmin ∉ cfg.admins) (.error .alreadyInitialized)
    require (oldAdmin ∈ cfg.admins) (.error .adminNotFound)
    setConfigEntry { cfg with admins := replaceAdmin oldAdmin newAdmin cfg.admins }
  | .setReputationNft nftContract => onSettings fun s => { s with reputationNft := some nftContract }
  | .setWhitelistEnabled enabled => onSettings fun s => { s with whitelistEnabled := enabled }
  | .blacklistBorrower borrower => onSettings fun s => { s with blacklisted := update s.blacklisted borrower true }
  | .setPrepaymentPenaltyBps penaltyBps => do
    require (penaltyBps ≤ 10000) (.error .invalidAmount)
    onSettings fun s => { s with prepaymentPenaltyBps := penaltyBps }
  | .setDynamicSlashThreshold enabled => do
    let cfg ← config
    setConfigEntry { cfg with dynamicSlashThreshold := enabled }
  | .setLoanSizeSlashEnabled enabled => do
    let cfg ← config
    setConfigEntry { cfg with loanSizeSlashEnabled := enabled }
  | .setLoanSizeSlashMaxBps maxBps => writeLoanSizeSlashMaxBps maxBps
  | .setSuccessorAdmin successor => do
    let cfg ← config
    require (∀ addr ∈ successor, addr ∉ cfg.admins) (.error .alreadyInitialized)
    writeSuccessor successor
  | .setConfirmationRequired enabled => do
    let cfg ← config
    setConfigEntry { cfg with confirmationRequired := enabled }
  | .setAdminCompensationBps compensationBps => do
    require (compensationBps ≤ 10000) (.error .invalidBps)
    let cfg ← config
    setConfigEntry { cfg with adminCompensationBps := compensationBps }
  | .setRemovalVoteThreshold threshold => do
    let cfg ← config
    setConfigEntry { cfg with removalVoteThreshold := threshold }
  | .setRateLimitConfig rateLimitConfig => do
    let cfg ← config
    setConfigEntry { cfg with rateLimitConfig }

/-- The counter of a table can be raised. -/
def requireNextId {P : Type} (table : AdminStore → Table P) (err : ContractError) : AdminTx Unit := do
  let t ← look fun g => table g.admin
  require (t.counter < u64Max) (.error err)

/-- `storage.get(&key).ok_or(err)?`. -/
def load {P : Type} (table : AdminStore → Table P) (id : Nat) (err : ContractError) : AdminTx P := do
  let entry ← look fun g => (table g.admin).entry id
  orFail entry (.error err)

/-! ## Admin actions -/

def proposeAdminAction (proposer : Address) (actionType : GovernanceAction) : AdminTx Unit := do
  let ctx ← ask
  requireAuth proposer
  require ((← isAdmin proposer) = true) (.error .unauthorizedCaller)
  requireNextId (·.adminActions) .counterOverflow
  let make (id : Nat) : AdminActionProposal :=
    { id, actionType, proposer, approvals := [], createdAt := ctx.now, executed := false }
  onAdmin fun a => { a with adminActions := a.adminActions.add make }

def storeAdminAction (actionId : Nat) (proposal : AdminActionProposal) : AdminTx Unit :=
  onAdmin fun a => { a with adminActions := a.adminActions.store actionId proposal }

def approveAdminAction (admin : Address) (actionId : Nat) : AdminTx Unit := do
  requireAuth admin
  require ((← isAdmin admin) = true) (.error .unauthorizedCaller)
  let proposal ← load (·.adminActions) actionId .noActiveLoan
  require (proposal.executed = false) (.error .slashAlreadyExecuted)
  require (admin ∉ proposal.approvals) (.error .alreadyVoted)
  storeAdminAction actionId { proposal with approvals := proposal.approvals ++ [admin] }

/-- Anyone may execute an action. Its approvals are counted, not looked at. -/
def executeAdminAction (actionId : Nat) : AdminTx Unit := do
  let proposal ← load (·.adminActions) actionId .noActiveLoan
  require (proposal.executed = false) (.error .slashAlreadyExecuted)
  let cfg ← config
  require (cfg.adminThreshold ≤ proposal.approvals.length) (.error .unauthorizedCaller)
  executeGovernanceActionInternal proposal.actionType
  storeAdminAction actionId { proposal with executed := true }

/-! ## Config updates -/

def proposeConfigUpdate (proposer : Address) (key : ConfigUpdateKey) (newValue : Nat) : AdminTx Unit := do
  requireAuth proposer
  guard requireNotPaused
  require ((← isAdmin proposer) = true) (.error .unauthorizedCaller)
  let cfg ← config
  require (key = .adminThreshold → newValue ≠ 0 ∧ newValue ≤ cfg.admins.length) (.error .invalidAdminThreshold)
  requireNextId (·.configUpdates) .counterOverflow
  let make (id : Nat) : ConfigUpdateProposal := { id, proposer, key, newValue, approvals := [], executed := false }
  onAdmin fun a => { a with configUpdates := a.configUpdates.add make }

def storeConfigUpdate (proposalId : Nat) (proposal : ConfigUpdateProposal) : AdminTx Unit :=
  onAdmin fun a => { a with configUpdates := a.configUpdates.store proposalId proposal }

def approveConfigUpdate (admin : Address) (proposalId : Nat) : AdminTx Unit := do
  requireAuth admin
  guard requireNotPaused
  require ((← isAdmin admin) = true) (.error .unauthorizedCaller)
  let proposal ← load (·.configUpdates) proposalId .proposalNotFound
  require (proposal.executed = false) (.error .proposalAlreadyFinalized)
  require (admin ∉ proposal.approvals) (.error .alreadyVoted)
  storeConfigUpdate proposalId { proposal with approvals := proposal.approvals ++ [admin] }

/-- The value was compared with the number of admins when it was proposed, and is not again. -/
def finalizeConfigUpdate (proposalId : Nat) : AdminTx Unit := do
  guard requireNotPaused
  let proposal ← load (·.configUpdates) proposalId .proposalNotFound
  require (proposal.executed = false) (.error .proposalAlreadyFinalized)
  let cfg ← config
  require (cfg.adminThreshold ≤ proposal.approvals.length) (.error .unauthorizedCaller)
  match proposal.key with
  | .adminThreshold => setConfigEntry { cfg with adminThreshold := proposal.newValue }
  storeConfigUpdate proposalId { proposal with executed := true }

/-! ## The governance queue -/

end Admin

/-- `get_governance_queue_config`. -/
def AdminStore.queueConfig (a : AdminStore) : GovernanceQueueConfig :=
  a.governanceQueueConfig.getD
    { timelockDelay := defaultGovernanceTimelockDelay, executionWindow := defaultGovernanceExecutionWindow
      requireMultisig := true }

namespace Admin

def setGovernanceQueueConfig (adminSigners : List Address) (queueConfig : GovernanceQueueConfig) : AdminTx Unit := do
  requireAdminApprovalForAction .panic adminSigners .updateConfig
  require (queueConfig.timelockDelay ≠ 0) (.panic .invalidAmount)
  require (queueConfig.executionWindow ≠ 0) (.panic .invalidAmount)
  onAdmin fun a => { a with governanceQueueConfig := some queueConfig }
  let _ ← firstAdminSigner adminSigners

def proposeGovernanceAction (proposer : Address) (action : GovernanceAction) (description : String) : AdminTx Unit := do
  let ctx ← ask
  requireAuth proposer
  require ((← isAdmin proposer) = true) (.error .unauthorizedCaller)
  let queueConfig ← look (·.admin.queueConfig)
  requireNextId (·.governanceProposals) .counterOverflow
  let executableAt ← u64 .arithmetic (ctx.now + queueConfig.timelockDelay)
  let expiresAt ← u64 .arithmetic (executableAt + queueConfig.executionWindow)
  let make (id : Nat) : GovernanceProposal :=
    { id, action, proposer, approvals := [], rejections := [], status := .pending, createdAt := ctx.now, executableAt
      expiresAt, description, executedAt := none }
  onAdmin fun a => { a with governanceProposals := a.governanceProposals.add make }

def storeGovernanceProposal (proposalId : Nat) (proposal : GovernanceProposal) : AdminTx Unit :=
  onAdmin fun a => { a with governanceProposals := a.governanceProposals.store proposalId proposal }

/-- The proposal is pending or approved. -/
def requireOpen (status : GovernanceProposalStatus) : AdminTx Unit := do
  require (status ≠ .executed ∧ status ≠ .cancelled) (.error .proposalAlreadyFinalized)
  require (status ≠ .expired) (.error .proposalExpired)

/-- An admin who has approved or rejected the proposal does neither again. -/
def requireUndecided (proposal : GovernanceProposal) (admin : Address) : AdminTx Unit := do
  require (admin ∉ proposal.approvals) (.error .alreadyVoted)
  require (admin ∉ proposal.rejections) (.error .alreadyVoted)

end Admin

/-- The status after an approval was added. -/
def GovernanceProposal.approvedStatus (p : GovernanceProposal) (requireMultisig : Bool) (adminThreshold : Nat) :
    GovernanceProposalStatus :=
  if requireMultisig = true then if adminThreshold ≤ p.approvals.length then .approved else p.status else .approved

namespace Admin

def approveGovernanceAction (admin : Address) (proposalId : Nat) : AdminTx Unit := do
  requireAuth admin
  require ((← isAdmin admin) = true) (.error .unauthorizedCaller)
  let proposal ← load (·.governanceProposals) proposalId .proposalNotFound
  requireOpen proposal.status
  requireUndecided proposal admin
  let proposal := { proposal with approvals := proposal.approvals ++ [admin] }
  let cfg ← config
  let queueConfig ← look (·.admin.queueConfig)
  let status := proposal.approvedStatus queueConfig.requireMultisig cfg.adminThreshold
  storeGovernanceProposal proposalId { proposal with status }

def rejectGovernanceAction (admin : Address) (proposalId : Nat) : AdminTx Unit := do
  requireAuth admin
  require ((← isAdmin admin) = true) (.error .unauthorizedCaller)
  let proposal ← load (·.governanceProposals) proposalId .proposalNotFound
  requireOpen proposal.status
  requireUndecided proposal admin
  let rejections := proposal.rejections ++ [admin]
  let cfg ← config
  let status := if cfg.adminThreshold ≤ rejections.length then .cancelled else proposal.status
  storeGovernanceProposal proposalId { proposal with rejections, status }

/-- Anyone may execute an approved proposal in its window. Past the window the
source marks it expired and returns an error, which undoes the mark. -/
def executeGovernanceAction (proposalId : Nat) : AdminTx Unit := do
  let ctx ← ask
  let proposal ← load (·.governanceProposals) proposalId .proposalNotFound
  requireOpen proposal.status
  require (proposal.status = .approved) (.error .unauthorizedCaller)
  require (proposal.executableAt ≤ ctx.now) (.error .timelockDelayNotElapsed)
  require (ctx.now ≤ proposal.expiresAt) (.error .executionWindowPassed)
  executeGovernanceActionInternal proposal.action
  storeGovernanceProposal proposalId { proposal with status := .executed, executedAt := some ctx.now }

def cancelGovernanceAction (caller : Address) (proposalId : Nat) : AdminTx Unit := do
  requireAuth caller
  let proposal ← load (·.governanceProposals) proposalId .proposalNotFound
  require (caller = proposal.proposer ∨ (← isAdmin caller) = true) (.error .unauthorizedCaller)
  requireOpen proposal.status
  storeGovernanceProposal proposalId { proposal with status := .cancelled }

/-! ## Timelocks -/

def storeTimelock (proposalId : Nat) (proposal : TimelockProposal) : AdminTx Unit :=
  onAdmin fun a => { a with timelocks := a.timelocks.store proposalId proposal }

/-- A timelock is proposed, ready from `eta` on. -/
def addTimelock (action : TimelockAction) (proposer : Address) (eta : Nat) : AdminTx Unit := do
  requireNextId (·.timelocks) .arithmeticOverflow
  let make (id : Nat) : TimelockProposal := { id, action, proposer, eta, executed := false, cancelled := false }
  onAdmin fun a => { a with timelocks := a.timelocks.add make }

def proposeConfigChange (proposer : Address) (newConfig : AdminConfig) : AdminTx Unit := do
  let ctx ← ask
  requireAuth proposer
  guard requireNotPaused
  require ((← isAdmin proposer) = true) (.assertion "only admins can propose config changes")
  validateAdminConfig newConfig.admins newConfig.adminThreshold newConfig.adminWhitelist newConfig.adminBlacklist
  let eta ← u64 .arithmetic (ctx.now + ctx.configTimelockSeconds)
  addTimelock (.setConfig newConfig) proposer eta

/-- One admin's proposal is executed by anyone once its timelock is over: nothing collects approvals. -/
def executeConfigChange (proposalId : Nat) : AdminTx Unit := do
  let ctx ← ask
  guard requireNotPaused
  let proposal ← load (·.timelocks) proposalId .proposalNotFound
  require (proposal.executed = false) (.error .slashAlreadyExecuted)
  require (proposal.cancelled = false) (.error .proposalNotFound)
  require (proposal.eta ≤ ctx.now) (.error .proposalNotFound)
  let expiry ← u64 .arithmetic (proposal.eta + timelockExpiry)
  require (ctx.now ≤ expiry) (.error .proposalNotFound)
  match proposal.action with
  | .setConfig newConfig => do
    storeTimelock proposalId { proposal with executed := true }
    setConfigEntry newConfig
  | .slash _ => fail (.error .proposalNotFound)

def cancelConfigChange (adminSigners : List Address) (proposalId : Nat) : AdminTx Unit := do
  guard requireNotPaused
  requireAdminApproval adminSigners
  let proposal ← load (·.timelocks) proposalId .proposalNotFound
  require (proposal.executed = false ∧ proposal.cancelled = false) (.error .slashAlreadyExecuted)
  storeTimelock proposalId { proposal with cancelled := true }

/-- The proposer cancels a slash before it is executed. -/
def cancelSlashProposal (caller : Address) (proposalId : Nat) : AdminTx Unit := do
  requireAuth caller
  let proposal ← load (·.timelocks) proposalId .noActiveLoan
  require (caller = proposal.proposer) (.panic .unauthorizedCaller)
  require (proposal.executed = false ∧ proposal.cancelled = false) (.error .slashAlreadyExecuted)
  storeTimelock proposalId { proposal with cancelled := true }

/-! ## Votes -/

/-- An admin, or a holder of the protocol's token. -/
def requireGovernanceParticipant (addr : Address) : AdminTx Unit := do
  let cfg ← config
  let bank ← look (·.bank)
  require (addr ∈ cfg.admins ∨ 0 < bank.balance cfg.token addr) (.error .notGovernanceParticipant)

/-- What opens every call of a vote. -/
def requireParticipant (addr : Address) : AdminTx Unit := do
  requireAuth addr
  guard requireNotPaused
  requireGovernanceParticipant addr

/-- The count of the votes of one side, after a vote. -/
def countVote (votes : Nat) (counted : Bool) : AdminTx Nat :=
  if counted = true then u32 .arithmetic (votes + 1) else return votes

def proposeSlashThreshold (proposer : Address) (newThreshold : Int) : AdminTx Unit := do
  let ctx ← ask
  requireParticipant proposer
  require (0 < newThreshold ∧ newThreshold ≤ 10000) (.error .invalidBps)
  requireNextId (·.slashThresholds) .arithmeticOverflow
  let make (id : Nat) : SlashThresholdProposal :=
    { id, proposer, proposedThreshold := newThreshold, proposedAt := ctx.now, approveVotes := 0, rejectVotes := 0
      voters := [], finalized := false }
  onAdmin fun a => { a with slashThresholds := a.slashThresholds.add make }

def storeSlashThreshold (proposalId : Nat) (proposal : SlashThresholdProposal) : AdminTx Unit :=
  onAdmin fun a => { a with slashThresholds := a.slashThresholds.store proposalId proposal }

def voteSlashThreshold (voter : Address) (proposalId : Nat) (approve : Bool) : AdminTx Unit := do
  let ctx ← ask
  requireParticipant voter
  let proposal ← load (·.slashThresholds) proposalId .proposalNotFound
  require (proposal.finalized = false) (.error .proposalAlreadyFinalized)
  let cfg ← config
  let votingEnd ← u64 .arithmetic (proposal.proposedAt + cfg.votingPeriodSeconds)
  require (ctx.now < votingEnd) (.error .votingPeriodEnded)
  require (voter ∉ proposal.voters) (.error .alreadyVoted)
  let approveVotes ← countVote proposal.approveVotes approve
  let rejectVotes ← countVote proposal.rejectVotes (!approve)
  storeSlashThreshold proposalId { proposal with approveVotes, rejectVotes, voters := proposal.voters ++ [voter] }

def finalizeSlashThreshold (proposalId : Nat) : AdminTx Unit := do
  let ctx ← ask
  guard requireNotPaused
  let proposal ← load (·.slashThresholds) proposalId .proposalNotFound
  require (proposal.finalized = false) (.error .proposalAlreadyFinalized)
  let cfg ← config
  let votingEnd ← u64 .arithmetic (proposal.proposedAt + cfg.votingPeriodSeconds)
  require (votingEnd ≤ ctx.now) (.error .timelockNotReady)
  let expiry ← u64 .arithmetic (votingEnd + cfg.votingPeriodSeconds)
  require (ctx.now ≤ expiry) (.error .timelockExpired)
  storeSlashThreshold proposalId { proposal with finalized := true }
  if proposal.rejectVotes < proposal.approveVotes then
    setConfigEntry { cfg with slashBps := proposal.proposedThreshold }
  else return ()

def proposeAdminRemoval (proposer adminToRemove : Address) : AdminTx Unit := do
  let ctx ← ask
  requireParticipant proposer
  let cfg ← config
  require (cfg.removalVoteThreshold ≠ 0) (.error .unauthorizedCaller)
  require (adminToRemove ∈ cfg.admins) (.error .unauthorizedCaller)
  requireNextId (·.adminRemovals) .arithmeticOverflow
  let make (id : Nat) : AdminRemovalProposal :=
    { id, adminToRemove, proposer, approveVotes := 0, rejectVotes := 0, voters := [], proposedAt := ctx.now
      finalized := false }
  onAdmin fun a => { a with adminRemovals := a.adminRemovals.add make }

def storeAdminRemoval (proposalId : Nat) (proposal : AdminRemovalProposal) : AdminTx Unit :=
  onAdmin fun a => { a with adminRemovals := a.adminRemovals.store proposalId proposal }

def voteAdminRemoval (voter : Address) (proposalId : Nat) (approve : Bool) : AdminTx Unit := do
  requireParticipant voter
  let proposal ← load (·.adminRemovals) proposalId .proposalNotFound
  require (proposal.finalized = false) (.error .proposalAlreadyFinalized)
  require (voter ∉ proposal.voters) (.error .alreadyVoted)
  let approveVotes ← countVote proposal.approveVotes approve
  let rejectVotes ← countVote proposal.rejectVotes (!approve)
  storeAdminRemoval proposalId { proposal with approveVotes, rejectVotes, voters := proposal.voters ++ [voter] }

def finalizeAdminRemoval (proposalId : Nat) : AdminTx Unit := do
  guard requireNotPaused
  let proposal ← load (·.adminRemovals) proposalId .proposalNotFound
  require (proposal.finalized = false) (.error .proposalAlreadyFinalized)
  let cfg ← config
  require (cfg.removalVoteThreshold ≤ proposal.approveVotes) (.error .quorumNotMet)
  require (proposal.adminToRemove ∈ cfg.admins) (.error .unauthorizedCaller)
  let admins := cfg.admins.erase proposal.adminToRemove
  require (cfg.adminThreshold ≤ admins.length) (.error .invalidAdminThreshold)
  setConfigEntry { cfg with admins }
  storeAdminRemoval proposalId { proposal with finalized := true }

/-! ## Queued withdrawals -/

def queueWithdrawal (voucher borrower : Address) (amount : Int) (token : Address) (delaySecs : Nat) : AdminTx Unit := do
  let ctx ← ask
  requireAuth voucher
  guard requireNotPaused
  require (0 < amount) (.panic .insufficientFunds)
  requireNextId (·.withdrawalTimelocks) .arithmeticOverflow
  let eta ← u64 .arithmetic (ctx.now + delaySecs)
  let make (id : Nat) : WithdrawalTimelock :=
    { id, voucher, borrower, amount, token, eta, executed := false, cancelled := false }
  onAdmin fun a => { a with withdrawalTimelocks := a.withdrawalTimelocks.add make }

def executeWithdrawal (lockId : Nat) : AdminTx Unit := do
  let ctx ← ask
  let timelock ← load (·.withdrawalTimelocks) lockId .noActiveLoan
  require (timelock.executed = false) (.panic .alreadyRepaid)
  require (timelock.cancelled = false) (.panic .invalidStateTransition)
  require (timelock.eta ≤ ctx.now) (.panic .timelockNotReady)
  onAdmin fun a =>
    { a with withdrawalTimelocks := a.withdrawalTimelocks.store lockId { timelock with executed := true } }

end Admin

end QuorumCredit
