import QuorumCredit.AdminApproval
/-!
# The calls of the administration

`admin.rs`, and what `rbac.rs` and `circuit_breaker.rs` let the administration
set: every call here is approved by signers in the call itself. The proposals,
which collect their approvals over several calls, are in the next module.
-/

open Host Function

namespace QuorumCredit

namespace Admin

/-! ## Reading and writing -/

def onAdmin (f : AdminStore → AdminStore) : AdminTx Unit := alter fun g => { g with admin := f g.admin }

/-- `storage.set(&DataKey::Config, &cfg)`. -/
def setConfigEntry (cfg : AdminConfig) : AdminTx Unit := onAdmin fun a => { a with config := cfg }

def onSettings (f : AdminSettings → AdminSettings) : AdminTx Unit :=
  onAdmin fun a => { a with settings := f a.settings }

def onAccess (f : Access → Access) : AdminTx Unit := alter fun g => { g with access := f g.access }

/-- `if let Err(err) = f() { panic_with_error!(&env, err) }`. -/
def orPanic (x : AdminTx Unit) : AdminTx Unit := do
  match ← attempt Failure.returned x with
  | .ok u => return u
  | .error err => fail (.panic err)

def isAdmin (addr : Address) : AdminTx Bool := do
  let cfg ← config
  return decide (addr ∈ cfg.admins)

def requireValidAddress (addr : Address) : AdminTx Unit := do
  let ctx ← ask
  require (ctx.isZeroAddress addr = false) (.error .zeroAddress)

/-- A token answers a query of the contract's balance. -/
def requireValidToken (addr : Address) : AdminTx Unit := do
  requireValidAddress addr
  let ctx ← ask
  require (ctx.isToken addr = true) (.error .invalidToken)

/-! ## Admins -/

def validateAdminMember (admin : Address) (cfg : AdminConfig) : AdminTx Unit := do
  require (cfg.adminWhitelist = [] ∨ admin ∈ cfg.adminWhitelist) (.panic .adminNotWhitelisted)
  require (admin ∉ cfg.adminBlacklist) (.panic .adminBlacklisted)

/-- One of the loops of `validate_admin_config`; `prior` are the addresses before. -/
def validateEach (check : Address → AdminTx Unit) (prior : List Address) : List Address → AdminTx Unit
  | [] => return ()
  | addr :: rest => do
    requireValidAddress addr
    require (addr ∉ prior) (.error .invalidAdminThreshold)
    check addr
    validateEach check (prior ++ [addr]) rest

def checkBlocked (adminWhitelist : List Address) (blocked : Address) : AdminTx Unit :=
  require (blocked ∉ adminWhitelist) (.error .invalidAdminThreshold)

def checkAdmin (adminWhitelist adminBlacklist : List Address) (admin : Address) : AdminTx Unit := do
  require (adminWhitelist = [] ∨ admin ∈ adminWhitelist) (.error .adminNotWhitelisted)
  require (admin ∉ adminBlacklist) (.error .adminBlacklisted)

def validateAdminConfig (admins : List Address) (adminThreshold : Nat) (adminWhitelist adminBlacklist : List Address) :
    AdminTx Unit := do
  require (admins ≠ []) (.error .invalidAdminThreshold)
  require (adminThreshold ≠ 0 ∧ adminThreshold ≤ admins.length) (.error .invalidAdminThreshold)
  validateEach (fun _ => return ()) [] adminWhitelist
  validateEach (checkBlocked adminWhitelist) [] adminBlacklist
  validateEach (checkAdmin adminWhitelist adminBlacklist) [] admins

def addAdmin (adminSigners : List Address) (newAdmin : Address) : AdminTx Unit := do
  requireAdminApprovalForAction .panic adminSigners .addAdmin
  let cfg ← config
  validateAdminMember newAdmin cfg
  require (newAdmin ∉ cfg.admins) (.panic .alreadyInitialized)
  setConfigEntry { cfg with admins := cfg.admins ++ [newAdmin] }

def removeAdmin (adminSigners : List Address) (adminToRemove : Address) : AdminTx Unit := do
  requireAdminApprovalForAction .panic adminSigners .removeAdmin
  -- nobody takes part in the removal of their own key
  require (adminToRemove ∉ adminSigners) (.panic .unauthorizedCaller)
  let cfg ← config
  require (adminToRemove ∈ cfg.admins) (.panic .adminNotFound)
  let admins := cfg.admins.erase adminToRemove
  require (admins ≠ []) (.panic .unauthorizedCaller)
  require (cfg.adminThreshold ≤ admins.length) (.panic .invalidAdminThreshold)
  setConfigEntry { cfg with admins }

/-- The list with the first `old` in it replaced. -/
def replaceAdmin (old new : Address) : List Address → List Address
  | [] => []
  | a :: rest => if a = old then new :: rest else a :: replaceAdmin old new rest

def rotateAdmin (adminSigners : List Address) (oldAdmin newAdmin : Address) : AdminTx Unit := do
  requireAdminApprovalForAction .panic adminSigners .rotateAdmin
  require (oldAdmin ≠ newAdmin) (.panic .invalidAmount)
  let cfg ← config
  validateAdminMember newAdmin cfg
  require (newAdmin ∉ cfg.admins) (.panic .alreadyInitialized)
  require (oldAdmin ∈ cfg.admins) (.panic .adminNotFound)
  setConfigEntry { cfg with admins := replaceAdmin oldAdmin newAdmin cfg.admins }

def setAdminThreshold (adminSigners : List Address) (newThreshold : Nat) : AdminTx Unit := do
  requireAdminApprovalForAction .panic adminSigners .setAdminThreshold
  let cfg ← config
  require (newThreshold ≠ 0) (.panic .invalidAmount)
  require (newThreshold ≤ cfg.admins.length) (.panic .invalidAdminThreshold)
  setConfigEntry { cfg with adminThreshold := newThreshold }

def addToAdminWhitelist (adminSigners : List Address) (address : Address) : AdminTx Unit := do
  requireAdminApprovalForAction .panic adminSigners .manageWhitelist
  let cfg ← config
  require (address ∉ cfg.adminWhitelist) (.panic .alreadyInitialized)
  require (address ∉ cfg.adminBlacklist) (.panic .adminBlacklisted)
  setConfigEntry { cfg with adminWhitelist := cfg.adminWhitelist ++ [address] }

def removeFromAdminWhitelist (adminSigners : List Address) (address : Address) : AdminTx Unit := do
  requireAdminApprovalForAction .panic adminSigners .manageWhitelist
  let cfg ← config
  require (address ∈ cfg.adminWhitelist) (.panic .addressNotInWhitelist)
  setConfigEntry { cfg with adminWhitelist := cfg.adminWhitelist.erase address }

def addToAdminBlacklist (adminSigners : List Address) (address : Address) : AdminTx Unit := do
  requireAdminApprovalForAction .panic adminSigners .manageBlacklisted
  let cfg ← config
  require (address ∉ cfg.adminBlacklist) (.panic .alreadyInitialized)
  require (address ∉ cfg.adminWhitelist) (.panic .adminNotWhitelisted)
  setConfigEntry { cfg with adminBlacklist := cfg.adminBlacklist ++ [address] }

def removeFromAdminBlacklist (adminSigners : List Address) (address : Address) : AdminTx Unit := do
  requireAdminApprovalForAction .panic adminSigners .manageBlacklisted
  let cfg ← config
  require (address ∈ cfg.adminBlacklist) (.panic .addressNotInBlacklist)
  setConfigEntry { cfg with adminBlacklist := cfg.adminBlacklist.erase address }

/-- Only the zero account is refused, not the zero contract; `is_zero_address` knows both. -/
def proposeAdmin (adminSigners : List Address) (newAdmin : Address) : AdminTx Unit := do
  requireAdminApprovalForAction .error adminSigners .addAdmin
  let ctx ← ask
  require (newAdmin ≠ ctx.zeroAccount) (.error .zeroAddress)
  onAdmin fun a => { a with pendingAdmin := some newAdmin }

def acceptAdmin : AdminTx Unit := do
  let newAdmin ← orFail (← look (·.admin.pendingAdmin)) (.error .unauthorizedCaller)
  requireAuth newAdmin
  let cfg ← config
  setConfigEntry { cfg with admins := cfg.admins ++ [newAdmin] }
  onAdmin fun a => { a with pendingAdmin := none }

/-- The writes of `set_successor_admin`. -/
def writeSuccessor (successor : Option Address) : AdminTx Unit := do
  let ctx ← ask
  let cfg ← config
  setConfigEntry { cfg with successorAdmin := successor }
  match successor with
  | some _ => do
    let claimableAt ← u64 .arithmetic (ctx.now + successorClaimTimelockSecs)
    onAdmin fun a => { a with successorAdminClaimableAt := some claimableAt }
  | none => onAdmin fun a => { a with successorAdminClaimableAt := none }

def setSuccessorAdmin (adminSigners : List Address) (successor : Option Address) : AdminTx Unit := do
  requireAdminApprovalForAction .panic adminSigners .addAdmin
  let cfg ← config
  require (∀ addr ∈ successor, addr ∉ cfg.admins) (.panic .alreadyInitialized)
  writeSuccessor successor
  let _ ← firstAdminSigner adminSigners

def cancelSuccessorAdmin (adminSigners : List Address) : AdminTx Unit := do
  requireAdminApprovalForAction .error adminSigners .removeAdmin
  let cfg ← config
  onAdmin fun a => { a with successorAdminClaimableAt := none }
  setConfigEntry { cfg with successorAdmin := none }
  let _ ← firstAdminSigner adminSigners

def claimSuccessorAdmin : AdminTx Unit := do
  let ctx ← ask
  let cfg ← config
  let successor ← orFail cfg.successorAdmin (.error .unauthorizedCaller)
  requireAuth successor
  let claimableAt ← look fun g => g.admin.successorAdminClaimableAt.getD 0
  require (claimableAt ≤ ctx.now) (.error .timelockDelayNotElapsed)
  onAdmin fun a => { a with successorAdminClaimableAt := none }
  setConfigEntry { cfg with admins := cfg.admins ++ [successor], successorAdmin := none }

/-- What `revoke_admin` asks of each of the others. -/
def checkRevoker (cfg : AdminConfig) (targetAdmin signer : Address) : AdminTx Unit := do
  require (signer ∈ cfg.admins) (.error .unauthorizedCaller)
  require (signer ≠ targetAdmin) (.error .unauthorizedCaller)

def revokeAdmin (existingAdmins : List Address) (targetAdmin : Address) : AdminTx Unit := do
  let cfg ← config
  require (targetAdmin ∈ cfg.admins) (.error .adminNotFound)
  let alreadyRevoked ← isRevoked targetAdmin
  require (alreadyRevoked = false) (.error .adminAlreadyRevoked)
  require (1 ≤ cfg.admins.length) (.error .noAdminsConfigured)
  let required := cfg.admins.length - 1
  require (required ≠ 0) (.error .invalidAdminThreshold)
  require (required ≤ existingAdmins.length) (.error .unauthorizedCaller)
  authorizeEach (checkRevoker cfg targetAdmin) existingAdmins
  let admins := cfg.admins.erase targetAdmin
  setConfigEntry { cfg with admins, adminThreshold := min cfg.adminThreshold admins.length }
  onAdmin fun a => { a with revokedAdmin := update a.revokedAdmin targetAdmin true }

def setMultiTierThresholds (adminSigners : List Address) (thresholds : MultiTierAdminThresholds) : AdminTx Unit := do
  requireAdminApprovalForAction .panic adminSigners .updateConfig
  let cfg ← config
  let valid (threshold : Nat) := 0 < threshold ∧ threshold ≤ cfg.admins.length
  require (valid thresholds.standardThreshold) (.assertion "invalid standard threshold")
  require (valid thresholds.highRiskThreshold) (.assertion "invalid high-risk threshold")
  require (valid thresholds.criticalThreshold) (.assertion "invalid critical threshold")
  onAdmin fun a => { a with multiTierThresholds := some thresholds }

/-! ## Roles -/

def assignAdminRole (adminSigners : List Address) (targetAdmin : Address) (role : AdminRole) : AdminTx Unit := do
  requireAdminApproval adminSigners
  onAdmin fun a => { a with adminRole := update a.adminRole targetAdmin (some role) }

/-- The roles after every admin in the list without one was made super admin. -/
def legacyRoles (admins : List Address) (adminRole : Address → Option AdminRole) (admin : Address) : Option AdminRole :=
  if admin ∈ admins then some ((adminRole admin).getD .superAdmin) else adminRole admin

def migrateLegacyAdminsToSuperadmin (adminSigners : List Address) : AdminTx Unit := do
  requireAdminApprovalForAction .error adminSigners .updateConfig
  let alreadyMigrated ← look (·.admin.legacyAdminMigrationComplete)
  if alreadyMigrated = true then return ()
  else
    onAdmin fun a =>
      { a with
        adminRole := legacyRoles a.config.admins a.adminRole
        legacyAdminMigrationComplete := true }

/-! ## Pause and circuit breaker -/

def pause (adminSigners : List Address) : AdminTx Unit := do
  requireAdminApprovalForAction .panic adminSigners .pause
  let ctx ← ask
  onAccess fun a =>
    { a with paused := true, pauseMode := .paused, thawState := some ⟨ctx.now, ctx.thawDurationSecs, 0⟩ }
  let _ ← firstAdminSigner adminSigners

def beginThaw (adminSigners : List Address) : AdminTx Unit := do
  requireAdminApprovalForAction .panic adminSigners .pause
  let ctx ← ask
  let a ← look (·.access)
  require (a.pauseMode = .paused) (.assertion "begin_thaw requires contract to be in Paused state")
  let thaw ← orFail a.thawState (.panic .pauseStateNotFound)
  onAccess fun a =>
    { a with pauseMode := .thawing, thawState := some { thaw with thawStartTimestamp := ctx.now } }
  let _ ← firstAdminSigner adminSigners

end Admin

/-- The breaker has never fired, or its last firing was acknowledged. -/
def Access.isCircuitBreakerAcknowledged (a : Access) : Bool :=
  a.circuitBreakerLastTriggered = 0 || a.circuitBreakerAcknowledged

namespace Admin

def unpause (adminSigners : List Address) : AdminTx Unit := do
  requireAdminApprovalForAction .panic adminSigners .unpause
  let acknowledged ← look (·.access.isCircuitBreakerAcknowledged)
  require (acknowledged = true) (.panic .circuitBreakerNotAcknowledged)
  onAccess fun a => { a with paused := false, pauseMode := .none, thawState := none }
  let _ ← firstAdminSigner adminSigners

def pauseWithThaw (adminSigners : List Address) (thawDuration : Nat) : AdminTx Unit := do
  requireAdminApprovalForAction .panic adminSigners .pause
  let ctx ← ask
  onAccess fun a =>
    { a with paused := true, pauseMode := .thawing, thawState := some ⟨ctx.now, thawDuration, ctx.now⟩ }
  let _ ← firstAdminSigner adminSigners

def acknowledgeCircuitBreaker (adminSigners : List Address) : AdminTx Unit := do
  requireAdminApprovalForAction .error adminSigners .unpause
  let lastTriggered ← look (·.access.circuitBreakerLastTriggered)
  require (lastTriggered ≠ 0) (.error .invalidStateTransition)
  require (adminSigners ≠ []) (.error .unauthorizedCaller)
  onAccess fun a => { a with circuitBreakerAcknowledged := true }

def emergencyPause (adminSigners : List Address) : AdminTx Unit := do
  requireAdminApprovalForAction .error adminSigners .pause
  let cfg ← config
  setConfigEntry { cfg with emergencyPauseEnabled := true }
  let _ ← firstAdminSigner adminSigners

def emergencyUnpause (adminSigners : List Address) : AdminTx Unit := do
  requireAdminApprovalForAction .error adminSigners .pause
  let cfg ← config
  setConfigEntry { cfg with emergencyPauseEnabled := false }
  let _ ← firstAdminSigner adminSigners

/-- The signers are taken and not looked at. -/
def setDefaultRateThreshold (_adminSigners : List Address) (newThreshold : Nat) : AdminTx Unit := do
  require (newThreshold ≤ 10000) (.error .invalidBps)
  let cfg ← config
  setConfigEntry { cfg with defaultRateThreshold := newThreshold }

/-! ## Settings -/

def setProtocolFee (adminSigners : List Address) (feeBps : Nat) : AdminTx Unit := do
  requireAdminApprovalForAction .panic adminSigners .updateFees
  require (feeBps ≤ 10000) (.panic .invalidAmount)
  onSettings fun s => { s with protocolFeeBps := feeBps }
  let _ ← firstAdminSigner adminSigners

def setFeeTreasury (adminSigners : List Address) (treasury : Address) : AdminTx Unit := do
  requireAdminApprovalForAction .panic adminSigners .updateFees
  onSettings fun s => { s with feeTreasury := some treasury }

def setWhitelistEnabled (adminSigners : List Address) (enabled : Bool) : AdminTx Unit := do
  requireAdminApprovalForAction .panic adminSigners .updateConfig
  onSettings fun s => { s with whitelistEnabled := enabled }
  let _ ← firstAdminSigner adminSigners

/-- The host refuses a hash no code was uploaded under. -/
def updateCurrentContractWasm (newWasmHash : Nat) : AdminTx Unit := do
  let ctx ← ask
  require (ctx.wasmUploaded newWasmHash = true) (.assertion "Wasm does not exist")
  onSettings fun s => { s with wasmHash := newWasmHash }

def upgrade (adminSigners : List Address) (newWasmHash : Nat) : AdminTx Unit := do
  requireAdminApprovalForAction .panic adminSigners .upgrade
  updateCurrentContractWasm newWasmHash

def blacklist (adminSigners : List Address) (borrower : Address) : AdminTx Unit := do
  requireAdminApprovalForAction .panic adminSigners .manageBlacklisted
  onSettings fun s => { s with blacklisted := update s.blacklisted borrower true }

def setReputationNft (adminSigners : List Address) (nftContract : Address) : AdminTx Unit := do
  requireAdminApprovalForAction .panic adminSigners .setReputationNft
  onSettings fun s => { s with reputationNft := some nftContract }
  let _ ← firstAdminSigner adminSigners

def setMinStake (adminSigners : List Address) (amount : Int) : AdminTx Unit := do
  requireAdminApprovalForAction .panic adminSigners .setLoanParams
  require (0 ≤ amount) (.panic .invalidAmount)
  onSettings fun s => { s with minStake := amount }
  let _ ← firstAdminSigner adminSigners

def setMaxLoanAmount (adminSigners : List Address) (amount : Int) : AdminTx Unit := do
  requireAdminApprovalForAction .panic adminSigners .setLoanParams
  require (0 ≤ amount) (.panic .invalidAmount)
  onSettings fun s => { s with maxLoanAmount := amount }
  let _ ← firstAdminSigner adminSigners

def setMinVouchers (adminSigners : List Address) (count : Nat) : AdminTx Unit := do
  requireAdminApprovalForAction .panic adminSigners .setLoanParams
  onSettings fun s => { s with minVouchers := count }
  let _ ← firstAdminSigner adminSigners

def setMaxVouchersPerBorrower (adminSigners : List Address) (maxVouchers : Nat) : AdminTx Unit := do
  requireAdminApprovalForAction .panic adminSigners .setLoanParams
  require (maxVouchers ≠ 0) (.panic .invalidAmount)
  onSettings fun s => { s with maxVouchersPerBorrower := maxVouchers }
  let _ ← firstAdminSigner adminSigners

def setPrepaymentPenaltyBps (adminSigners : List Address) (penaltyBps : Nat) : AdminTx Unit := do
  requireAdminApprovalForAction .panic adminSigners .updateFees
  require (penaltyBps ≤ 10000) (.assertion "penalty_bps must not exceed 10000")
  onSettings fun s => { s with prepaymentPenaltyBps := penaltyBps }
  let _ ← firstAdminSigner adminSigners

/-! ## Configuration -/

def setConfig (adminSigners : List Address) (cfg : AdminConfig) : AdminTx Unit := do
  orPanic (guard requireNotPaused)
  requireAdminApprovalForAction .panic adminSigners .setConfig
  orPanic (validateAdminConfig cfg.admins cfg.adminThreshold cfg.adminWhitelist cfg.adminBlacklist)
  require (0 ≤ cfg.yieldBps ∧ cfg.yieldBps ≤ 10000) (.panic .invalidBps)
  require (0 < cfg.slashBps ∧ cfg.slashBps ≤ 10000) (.panic .invalidAmount)
  require (cfg.maxVouchers ≠ 0) (.panic .invalidAmount)
  require (0 < cfg.minLoanAmount) (.panic .invalidAmount)
  require (cfg.loanDuration ≠ 0) (.panic .invalidAmount)
  require (cfg.gracePeriod ≤ cfg.loanDuration) (.panic .invalidAmount)
  require (cfg.maxLoanToStakeRatio ≠ 0) (.panic .invalidAmount)
  require (cfg.recoveryPercentage ≤ 10000) (.panic .invalidBps)
  setConfigEntry cfg
  let _ ← firstAdminSigner adminSigners

/-- An optional field of an update: left as it is, or checked and written. -/
def updateField {α : Type} (value : Option α) (ok : α → Prop) [DecidablePred ok] (err : ContractError)
    (write : α → AdminConfig → AdminConfig) (cfg : AdminConfig) : AdminTx AdminConfig :=
  match value with
  | some v => do
    require (ok v) (.panic err)
    return write v cfg
  | none => return cfg

def updateYieldBps (yieldBps : Option Int) : AdminConfig → AdminTx AdminConfig :=
  updateField yieldBps (fun v => 0 ≤ v ∧ v ≤ 10000) .invalidBps fun v cfg => { cfg with yieldBps := v }

def updateSlashBps (slashBps : Option Int) : AdminConfig → AdminTx AdminConfig :=
  updateField slashBps (fun v => 0 < v ∧ v ≤ 10000) .invalidAmount fun v cfg => { cfg with slashBps := v }

def updateMaxVouchers (maxVouchers : Option Nat) : AdminConfig → AdminTx AdminConfig :=
  updateField maxVouchers (· ≠ 0) .invalidAmount fun v cfg => { cfg with maxVouchers := v }

def updateMinLoanAmount (minLoanAmount : Option Int) : AdminConfig → AdminTx AdminConfig :=
  updateField minLoanAmount (0 < ·) .invalidAmount fun v cfg => { cfg with minLoanAmount := v }

def updateLoanDuration (loanDuration : Option Nat) : AdminConfig → AdminTx AdminConfig :=
  updateField loanDuration (· ≠ 0) .invalidAmount fun v cfg => { cfg with loanDuration := v }

def updateMaxLoanToStakeRatio (ratio : Option Nat) : AdminConfig → AdminTx AdminConfig :=
  updateField ratio (· ≠ 0) .invalidAmount fun v cfg => { cfg with maxLoanToStakeRatio := v }

/-- The grace period is compared with the loan duration of the update, where it has one. -/
def updateGracePeriod (gracePeriod : Option Nat) (cfg : AdminConfig) : AdminTx AdminConfig :=
  updateField gracePeriod (· ≤ cfg.loanDuration) .invalidAmount (fun v cfg => { cfg with gracePeriod := v }) cfg

def updateLiquidityMiningRateBps (rateBps : Option Nat) : AdminConfig → AdminTx AdminConfig :=
  updateField rateBps (· ≤ 10000) .invalidBps fun v cfg => { cfg with liquidityMiningRateBps := v }

def updateConfig (adminSigners : List Address) (yieldBps slashBps : Option Int) : AdminTx Unit := do
  orPanic (guard requireNotPaused)
  requireAdminApprovalForAction .panic adminSigners .updateConfig
  let cfg ← config
  let cfg ← updateYieldBps yieldBps cfg
  let cfg ← updateSlashBps slashBps cfg
  setConfigEntry cfg
  let _ ← firstAdminSigner adminSigners

/-- The optional arguments of `batch_update_config`. -/
structure ConfigUpdate where
  yieldBps : Option Int
  slashBps : Option Int
  maxVouchers : Option Nat
  minLoanAmount : Option Int
  loanDuration : Option Nat
  maxLoanToStakeRatio : Option Nat
  gracePeriod : Option Nat
  liquidityMiningRateBps : Option Nat

/-- A new loan duration is not compared with the grace period that stays. -/
def batchUpdateConfig (adminSigners : List Address) (u : ConfigUpdate) : AdminTx Unit := do
  orPanic (guard requireNotPaused)
  requireAdminApprovalForAction .panic adminSigners .updateConfig
  let cfg ← config
  let cfg ← updateYieldBps u.yieldBps cfg
  let cfg ← updateSlashBps u.slashBps cfg
  let cfg ← updateMaxVouchers u.maxVouchers cfg
  let cfg ← updateMinLoanAmount u.minLoanAmount cfg
  let cfg ← updateLoanDuration u.loanDuration cfg
  let cfg ← updateMaxLoanToStakeRatio u.maxLoanToStakeRatio cfg
  let cfg ← updateGracePeriod u.gracePeriod cfg
  let cfg ← updateLiquidityMiningRateBps u.liquidityMiningRateBps cfg
  setConfigEntry cfg
  let _ ← firstAdminSigner adminSigners

def setDynamicSlashThreshold (adminSigners : List Address) (enabled : Bool) : AdminTx Unit := do
  requireAdminApprovalForAction .panic adminSigners .manageDynamicSlash
  let cfg ← config
  setConfigEntry { cfg with dynamicSlashThreshold := enabled }
  let _ ← firstAdminSigner adminSigners

def setLoanSizeSlashEnabled (adminSigners : List Address) (enabled : Bool) : AdminTx Unit := do
  requireAdminApprovalForAction .panic adminSigners .manageDynamicSlash
  let cfg ← config
  setConfigEntry { cfg with loanSizeSlashEnabled := enabled }
  let _ ← firstAdminSigner adminSigners

/-- The assertions and the write of `set_loan_size_slash_max_bps`. -/
def writeLoanSizeSlashMaxBps (maxBps : Int) : AdminTx Unit := do
  let cfg ← config
  require (cfg.slashBps ≤ maxBps) (.assertion "loan_size_slash_max_bps must be >= slash_bps")
  require (maxBps ≤ 10000) (.assertion "loan_size_slash_max_bps cannot exceed 100%")
  setConfigEntry { cfg with loanSizeSlashMaxBps := maxBps }

def setLoanSizeSlashMaxBps (adminSigners : List Address) (maxBps : Int) : AdminTx Unit := do
  requireAdminApprovalForAction .panic adminSigners .manageDynamicSlash
  writeLoanSizeSlashMaxBps maxBps
  let _ ← firstAdminSigner adminSigners

def setMaxLoanToStakeRatio (adminSigners : List Address) (ratio : Nat) : AdminTx Unit := do
  requireAdminApprovalForAction .panic adminSigners .setLoanParams
  require (ratio ≠ 0) (.panic .invalidAmount)
  let cfg ← config
  setConfigEntry { cfg with maxLoanToStakeRatio := ratio }

def setGracePeriod (adminSigners : List Address) (period : Nat) : AdminTx Unit := do
  requireAdminApprovalForAction .panic adminSigners .setLoanParams
  let cfg ← config
  require (period ≤ cfg.loanDuration) (.panic .invalidAmount)
  setConfigEntry { cfg with gracePeriod := period }

def addAllowedToken (adminSigners : List Address) (token : Address) : AdminTx Unit := do
  requireAdminApprovalForAction .error adminSigners .updateConfig
  requireValidToken token
  let cfg ← config
  require (token ∉ cfg.allowedTokens ∧ token ≠ cfg.token) (.error .duplicateToken)
  setConfigEntry { cfg with allowedTokens := cfg.allowedTokens ++ [token] }

def removeAllowedToken (adminSigners : List Address) (token : Address) : AdminTx Unit := do
  requireAdminApprovalForAction .panic adminSigners .updateConfig
  let cfg ← config
  require (token ∈ cfg.allowedTokens) (.panic .tokenNotInAllowedList)
  setConfigEntry { cfg with allowedTokens := cfg.allowedTokens.erase token }

def setConfirmationRequired (adminSigners : List Address) (enabled : Bool) : AdminTx Unit := do
  requireAdminApprovalForAction .panic adminSigners .setLoanParams
  let cfg ← config
  setConfigEntry { cfg with confirmationRequired := enabled }
  let _ ← firstAdminSigner adminSigners

def setAdminCompensationBps (adminSigners : List Address) (compensationBps : Nat) : AdminTx Unit := do
  requireAdminApprovalForAction .panic adminSigners .updateFees
  require (compensationBps ≤ 10000) (.panic .invalidBps)
  let cfg ← config
  setConfigEntry { cfg with adminCompensationBps := compensationBps }
  let _ ← firstAdminSigner adminSigners

def setRemovalVoteThreshold (adminSigners : List Address) (threshold : Nat) : AdminTx Unit := do
  requireAdminApprovalForAction .panic adminSigners .updateConfig
  let cfg ← config
  setConfigEntry { cfg with removalVoteThreshold := threshold }
  let _ ← firstAdminSigner adminSigners

def setRateLimitConfig (adminSigners : List Address) (rateLimitConfig : RateLimitConfig) : AdminTx Unit := do
  requireAdminApprovalForAction .panic adminSigners .updateConfig
  let cfg ← config
  setConfigEntry { cfg with rateLimitConfig }

/-- The setters of the insurance fund ask for approval twice, and so for every
signer's authorisation twice. -/
def setInsurance (adminSigners : List Address) (bps : Nat) (write : AdminConfig → AdminConfig) : AdminTx Unit := do
  requireAdminApproval adminSigners
  requireAdminApprovalForAction .panic adminSigners .updateConfig
  require (bps ≤ 10000) (.panic .invalidAmount)
  let cfg ← config
  setConfigEntry (write cfg)
  let _ ← firstAdminSigner adminSigners

def setInsuranceFundPremiumBps (adminSigners : List Address) (premiumBps : Nat) : AdminTx Unit :=
  setInsurance adminSigners premiumBps fun cfg => { cfg with insuranceFundPremiumBps := premiumBps }

def setInsuranceMaxPayoutBps (adminSigners : List Address) (maxPayoutBps : Nat) : AdminTx Unit :=
  setInsurance adminSigners maxPayoutBps fun cfg => { cfg with insuranceMaxPayoutBps := maxPayoutBps }

def setInsurancePremiumBps (adminSigners : List Address) (premiumBps : Nat) : AdminTx Unit :=
  setInsurance adminSigners premiumBps fun cfg => { cfg with insurancePremiumBps := premiumBps }

def setMaxVouchersPerLoan (adminSigners : List Address) (max : Nat) : AdminTx Unit := do
  requireAdminApproval adminSigners
  require (0 < max) (.assertion "max_vouchers_per_loan must be greater than zero")
  let cfg ← config
  setConfigEntry { cfg with maxVouchers := max }
  onSettings fun s => { s with maxVouchersPerBorrower := max }

def setupRoleBasedRateLimits (adminSigners : List Address) : AdminTx Unit := do
  requireAdminApproval adminSigners
  let cfg ← config
  setConfigEntry { cfg with rateLimitConfig := { cfg.rateLimitConfig with enabled := true } }

/-! ## The direct call of an action -/

/-- The function that does an action of the queue directly. -/
def directCall (adminSigners : List Address) : GovernanceAction → AdminTx Unit
  | .pause => pause adminSigners
  | .unpause => unpause adminSigners
  | .upgrade newWasmHash => upgrade adminSigners newWasmHash
  | .setProtocolFee feeBps => setProtocolFee adminSigners feeBps
  | .setFeeTreasury treasury => setFeeTreasury adminSigners treasury
  | .addAllowedToken token => addAllowedToken adminSigners token
  | .removeAllowedToken token => removeAllowedToken adminSigners token
  | .setMinStake amount => setMinStake adminSigners amount
  | .setMaxLoanAmount amount => setMaxLoanAmount adminSigners amount
  | .setMinVouchers count => setMinVouchers adminSigners count
  | .setMaxVouchersPerBorrower count => setMaxVouchersPerBorrower adminSigners count
  | .setMaxLoanToStakeRatio ratio => setMaxLoanToStakeRatio adminSigners ratio
  | .setGracePeriod period => setGracePeriod adminSigners period
  | .setYieldBps yieldBps => updateConfig adminSigners (some yieldBps) none
  | .setSlashBps slashBps => updateConfig adminSigners none (some slashBps)
  | .setAdminThreshold threshold => setAdminThreshold adminSigners threshold
  | .addAdmin newAdmin => addAdmin adminSigners newAdmin
  | .removeAdmin adminToRemove => removeAdmin adminSigners adminToRemove
  | .rotateAdmin oldAdmin newAdmin => rotateAdmin adminSigners oldAdmin newAdmin
  | .setReputationNft nftContract => setReputationNft adminSigners nftContract
  | .setWhitelistEnabled enabled => setWhitelistEnabled adminSigners enabled
  | .blacklistBorrower borrower => blacklist adminSigners borrower
  | .setPrepaymentPenaltyBps penaltyBps => setPrepaymentPenaltyBps adminSigners penaltyBps
  | .setDynamicSlashThreshold enabled => setDynamicSlashThreshold adminSigners enabled
  | .setLoanSizeSlashEnabled enabled => setLoanSizeSlashEnabled adminSigners enabled
  | .setLoanSizeSlashMaxBps maxBps => setLoanSizeSlashMaxBps adminSigners maxBps
  | .setSuccessorAdmin successor => setSuccessorAdmin adminSigners successor
  | .setConfirmationRequired enabled => setConfirmationRequired adminSigners enabled
  | .setAdminCompensationBps compensationBps => setAdminCompensationBps adminSigners compensationBps
  | .setRemovalVoteThreshold threshold => setRemovalVoteThreshold adminSigners threshold
  | .setRateLimitConfig rateLimitConfig => setRateLimitConfig adminSigners rateLimitConfig

end Admin

end QuorumCredit
