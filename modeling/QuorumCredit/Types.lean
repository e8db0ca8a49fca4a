import QuorumCredit.Host.Arith
import QuorumCredit.Host.Bank
import Mathlib.Logic.Function.Basic
/-!
# Records and storage

The data types of `types.rs` that the modelled functions read or write, and the
contract's storage as they see it. A storage entry read with `unwrap_or` is a
total map; one whose absence is tested is an `Option`.

Storage is split by what belongs together: the loans and their counters
(`LoanBook`), the slash votes (`Ballots`), the money and the vouches it backs
(`Vault`), and so on. What no modelled function writes (configuration, roles,
the clock) is the `World`, which a call reads as its context.
-/

open Host

namespace QuorumCredit

abbrev Address := Nat

/-! ## Constants -/

def bpsDenominator : Int := 10000
def defaultSlashVoteQuorumBps : Nat := 6667
def monthlyPeriodSecs : Nat := 30 * 24 * 60 * 60
def slashEscrowPeriod : Nat := 30 * 24 * 60 * 60
def secsPerDay : Nat := 24 * 60 * 60
def compoundRateBps : Int := 500
def reputationBonusMaxBps : Int := 100
def sybilMinStakeForRep : Int := 1000000
def sybilRepSaturation : Nat := 200
def maxPriorityFeeBps : Int := 1000
def partialWithdrawalMaxBps : Int := 5000
def partialWithdrawalPenaltyBps : Int := 1000
def minSplitStake : Int := 100 * 10000000
def rotationCooldownSecs : Nat := 14 * 24 * 60 * 60
def rotationBonusIntervalSecs : Nat := 90 * 24 * 60 * 60
def rotationBonusRate : Nat := 500
def slashAppealPeriod : Nat := 7 * 24 * 60 * 60
def appealOverrideQuorumBps : Int := 6667

/-! ## Errors -/

/-- The contract errors the modelled functions return. -/
inductive ContractError where
  | reentrancy | contractPaused | contractThawing | invalidAmount | noActiveLoan | counterOverflow
  | poolInsufficientFunds | invalidToken | rateLimitExceeded | permissionDenied | activeLoanExists
  | loanBelowMinAmount | insufficientFunds | loanExceedsMaxRatio | arithmeticError | loanNotFound
  | invalidStateTransition | invalidParameters | loanPastDeadline | refinanceNoOutstanding
  | refinanceLimitExceeded | refinanceCooldownActive | refinanceNotEligible | selfVouchNotAllowed
  | blacklisted | voucherNotWhitelisted | minStakeNotMet | vouchCooldownActive | duplicateVouch
  | maxVouchersPerBorrowerExceeded | insufficientVoucherBalance | invalidChain | stakeOverflow
  | noVouchesForBorrower | voucherNotFound | withdrawalAlreadyQueued | withdrawalQueueFull
  | circularDelegation | delegationNotFound | slashAlreadyExecuted | slashCooldownActive | alreadyVoted
  | slashVoteNotFound | quorumNotMet | delayNotElapsed | arithmeticOverflow | alreadyRepaid
  | gracePeriodNotPassed | loanNotExpired | poolLengthMismatch | poolEmpty | poolBorrowerActiveLoan
  | splitBelowMinimum | rotationCooldownActive | slashRecordNotFound | slashAlreadyReversed | timelockNotReady
  | appealAlreadyPending | appealNotFound | escrowExpired | unauthorizedCaller
  | relayKeyNotConfigured | invalidRelayChain | relayReplayDetected | relayEventExpired | relayEventFromFuture
  | relayEventAlreadyProcessed | relayAckRegression
  | proposalNotFound | notFound | votingPeriodEnded | proposalAlreadyFinalized
  | stakingPoolNotFound | stakingPoolNotActive | withdrawalNotQueued | insufficientYieldReserve
  | queueFull | zeroAddress | alreadyInitialized | timelockExpired | duplicateToken | invalidAdminThreshold | invalidBps
  | adminNotWhitelisted | adminBlacklisted | adminAlreadyRevoked | adminNotFound | proposalExpired
  | timelockDelayNotElapsed | executionWindowPassed | emptySignerList | addressNotInWhitelist | addressNotInBlacklist
  | pauseStateNotFound | tokenNotInAllowedList | noAdminsConfigured | circuitBreakerNotAcknowledged
  | notGovernanceParticipant
  | auditTrailFull | invalidAuditEvent | noEventsToCompress | archiveNotFound | archiveIntegrityFailed
  | archiveCorrupted | invalidRetentionPeriod
  | syndicatePoolExists | syndicateEmpty | syndicatePoolNotFound | syndicateNotActive | notSyndicateMember
  | syndicateAlreadyVoted | syndicateProposalNotFound
  | syndicationNotFound | loanExceedsMaxAmount | invalidSyndicationStatus | invalidSyndicationShare
  | syndicationMemberExists | syndicationMaxMembersExceeded | syndicationMemberNotFound | syndicationHasLoan
  | flashLoanCallbackNotAllowlisted | flashLoanNotRepaid | flashLoanCapExceeded | flashLoanCooldownActive
  | invalidFeeAmount
  | invalidGuarantor | invalidGuaranteeAmount | guarantorAlreadyAssigned | guarantorNotFound
  | invalidGuaranteeStatus | guarantorAlreadyClaimed
  | bridgeNotConfigured | replayAttackDetected | insufficientBridgeConfirmations | attestationFromFuture
  | attestationExpired | reputationAlreadySpent | staleBridgeAttestation | bridgeAttestationRequired
  | noRefundAvailable | voteAttestationExpired | voteAttestationNonceReused
  | milestoneNotReached | milestoneAlreadyReleased
  | recurringPaymentExists | recurringPaymentNotFound | recurringPaymentInactive | recurringPaymentNotDue
  | credentialRateLimitExceeded | invalidRateLimit | invalidRateLimitWindow
  | emptyBatch | batchTooLarge | batchNotFound | batchAlreadyExecuted | sbtGroupNotFound | sbtGroupProposalNotFound
  | extensionAlreadyRequested | maxExtensionsReached
  | loanInForbearance | maxForbearanceExceeded | forbearanceNotFound | forbearanceNotActive
  | bondAlreadyActive
deriving DecidableEq, Repr

/-- How a call ends without effect: a returned error, `panic_with_error!`, a
failed `assert!`, an arithmetic trap, a missing signature, a refused token
transfer, a stored entry that does not decode as the type it is read as, a
signature over a message that does not verify, or a host function that refuses
its arguments. -/
inductive Failure where
  | error (e : ContractError)
  | panic (e : ContractError)
  | assertion (msg : String)
  | arithmetic
  | unauthorized (who : Address)
  | token
  | decode
  | signature
  | host
deriving DecidableEq, Repr

/-- `let _ = f()` discards a returned error; a trap still ends the call. -/
def Failure.returned : Failure → Option ContractError
  | .error e => some e
  | _ => none

/-! ## Records -/

inductive LoanStatus where
  | none | active | repaid | defaulted
deriving DecidableEq, Repr

inductive RateType where
  | fixed | variable
deriving DecidableEq, Repr

/-- `LoanRecord`, without the fields no modelled function reads. -/
structure LoanRecord where
  id : Nat
  borrower : Address
  guarantor : Option Address
  coBorrowers : List Address
  amount : Int
  amountRepaid : Int
  totalYield : Int
  status : LoanStatus
  repaid : Bool
  defaulted : Bool
  createdAt : Nat
  disbursementTimestamp : Nat
  repaymentTimestamp : Option Nat
  deadline : Nat
  loanPurpose : String
  tokenAddress : Address
  riskScore : Nat
  rateType : RateType
  indexReference : Option String
  lastInterestCalc : Nat
  accruedInterest : Int
  milestoneBonusApplied : Nat
deriving DecidableEq, Repr

structure VouchRecord where
  voucher : Address
  stake : Int
  vouchTimestamp : Nat
  token : Address
  expiryTimestamp : Option Nat
  delegate : Option Address
  chainId : Option Nat
deriving DecidableEq, Repr

structure QueuedWithdrawal where
  voucher : Address
  token : Address
  requestedAt : Nat
  isPartial : Bool
  priorityFee : Int
deriving DecidableEq, Repr

structure VoucherStats where
  successfulVouches : Nat
  totalVouchesSlashed : Nat
  totalYieldEarned : Int
  totalSlashed : Int
deriving DecidableEq, Repr

/-- The record `unwrap_or` supplies for a voucher without history. -/
def VoucherStats.fresh : VoucherStats := ⟨0, 0, 0, 0⟩

structure YieldDistributionEntry where
  voucher : Address
  yieldAmount : Int
deriving DecidableEq, Repr

structure PaymentRecord where
  amount : Int
  timestamp : Nat
  cumulativeRepaid : Int
deriving DecidableEq, Repr

structure SlashVoteRecord where
  approveStake : Int
  rejectStake : Int
  voters : List Address
  executed : Bool
deriving DecidableEq, Repr

/-- The record a first vote starts from. -/
def SlashVoteRecord.fresh : SlashVoteRecord := ⟨0, 0, [], false⟩

structure PendingSlashRecord where
  borrower : Address
  approvedAt : Nat
  executableAt : Nat
  executed : Bool
deriving DecidableEq, Repr

structure SlashRecord where
  slashId : Nat
  borrower : Address
  loanId : Nat
  loanAmount : Int
  totalSlashed : Int
  slashTimestamp : Nat
  recoveryAmount : Int
  reversalReason : Option String
  reversed : Bool
  effectiveSlashBps : Int
deriving DecidableEq, Repr

inductive AppealStatus where
  | pending | approved | rejected
deriving DecidableEq, Repr

/-- `SlashEscrow`: the escrow record of an appeal. -/
structure SlashEscrow where
  borrower : Address
  loanId : Nat
  escrowAmount : Int
  releaseTimestamp : Nat
  status : AppealStatus
deriving DecidableEq, Repr

/-- What `DataKey::SlashEscrow(borrower)` holds: the pair a slash writes, or the
record an appeal writes. Neither decodes as the other. -/
inductive EscrowEntry where
  | slashed (amount : Int) (releaseTimestamp : Nat)
  | appealed (escrow : SlashEscrow)
deriving DecidableEq, Repr

structure SlashEscrowAppealRecord where
  borrower : Address
  loanId : Nat
  approveStake : Int
  rejectStake : Int
  voters : List Address
  appealTimestamp : Nat
deriving DecidableEq, Repr

structure VouchSplitRecord where
  parentVoucher : Address
  childVoucher : Address
  borrower : Address
  amount : Int
  splitAt : Nat
deriving DecidableEq, Repr

/-- `BatchVouchResult`, with the error itself for its code. -/
structure BatchVouchResult where
  borrower : Address
  stake : Int
  success : Bool
  error : Option ContractError
deriving DecidableEq, Repr

inductive VoteSlashResult where
  | voteCounted | delegateWillVote
deriving DecidableEq, Repr

structure LoanCovenantConfig where
  loanId : Nat
  monitoringPeriodSecs : Nat
deriving DecidableEq, Repr

structure LoanCovenantStatus where
  loanId : Nat
  breachCount : Nat
  lastBreachTimestamp : Nat
  lastCheckTimestamp : Nat
  isAccelerated : Bool
deriving DecidableEq, Repr

structure RefinanceRecord where
  oldLoanId : Nat
  newLoanId : Nat
  borrower : Address
  oldAmount : Int
  newAmount : Int
  oldRateBps : Int
  newRateBps : Int
  refinancedAt : Nat
deriving DecidableEq, Repr

structure RefinanceStats where
  totalRefinances : Nat
  totalRateReductionBps : Int
  totalEstimatedSavings : Int
deriving DecidableEq, Repr

structure LoanPoolRecord where
  poolId : Nat
  borrowers : List Address
  amounts : List Int
  createdAt : Nat
  totalDisbursed : Int
deriving DecidableEq, Repr

inductive PauseMode where
  | none | thawing | paused
deriving DecidableEq, Repr

structure ThawState where
  pauseTimestamp : Nat
  thawDuration : Nat
  thawStartTimestamp : Nat
deriving DecidableEq, Repr

structure CircuitBreakerTrigger where
  timestamp : Nat
  defaultCount : Nat
  totalLoanCount : Nat
  rateBps : Nat
deriving DecidableEq, Repr

structure CachedYield where
  yieldBps : Int
  baseYieldBps : Int
  cachedAt : Nat
deriving DecidableEq, Repr

/-! ## Context of a call -/

structure RateLimitConfig where
  windowSecs : Nat
  maxCalls : Nat
  enabled : Bool

/-- `Config`, without the fields no modelled function reads. -/
structure Config where
  admins : List Address
  adminThreshold : Nat
  token : Address
  allowedTokens : List Address
  yieldBps : Int
  slashBps : Int
  minLoanAmount : Int
  loanDuration : Nat
  maxLoanToStakeRatio : Nat
  maxLoanToCollateralRatio : Nat
  gracePeriod : Nat
  prepaymentPenaltyBps : Nat
  slashCooldownSeconds : Nat
  emergencyPauseEnabled : Bool
  slashDelaySeconds : Nat
  rateLimitConfig : RateLimitConfig
  recoveryPercentage : Nat
  liquidityTierYieldBonus : List Int
  maxPriorityFeeCapBps : Int
  defaultRateThreshold : Nat
  insuranceFundPremiumBps : Nat
  maxRefinancesPerLoanChain : Nat
  refinanceCooldownSecs : Nat

/-- What `set_config` and the setters of single fields check. -/
structure Config.Valid (cfg : Config) : Prop where
  yieldBps : 0 ≤ cfg.yieldBps ∧ cfg.yieldBps ≤ 10000
  slashBps : 0 < cfg.slashBps ∧ cfg.slashBps ≤ 10000
  minLoanAmount : 0 < cfg.minLoanAmount
  loanDuration : 0 < cfg.loanDuration
  maxLoanToStakeRatio : 0 < cfg.maxLoanToStakeRatio
  recoveryPercentage : cfg.recoveryPercentage ≤ 10000

/-- The flags of `RolePermissions` that a modelled function checks. -/
structure RolePermissions where
  canRequestLoan : Bool
  canRepay : Bool

inductive AdminRole where
  | superAdmin | treasurer | monitor | slasher | governanceOperator
deriving DecidableEq, Repr

/-- `VouchConfig`: the instance settings `do_vouch` loads. -/
structure VouchConfig where
  whitelistEnabled : Bool
  minStake : Int
  vouchCooldownSecs : Nat
  maxVouchersPerBorrower : Nat

/-- What the contract calls the reputation NFT contract for. -/
inductive NftCall where
  | mint | burn

/-- Everything a call reads and none of the modelled functions writes: the
ledger clock, the configuration, roles and lists set by administration. The last
two fields are constants the source uses without defining them. -/
structure World where
  now : Nat
  contract : Address
  config : Config
  revokedAdmin : Address → Bool
  rolePermissions : Address → Option RolePermissions
  isZeroAddress : Address → Bool
  vouchConfig : VouchConfig
  blacklisted : Address → Bool
  voucherWhitelist : Address → Bool
  cooldownBypass : Address → Address → Bool
  activeBridge : Nat → Bool
  -- the reward of the borrower's credit tier, if the borrower has a credit score
  tierYieldBonusBps : Address → Option Int
  tierMinStakeReductionBps : Address → Option Int
  tokenLiquidityTier : Address → Nat
  prepaymentBonusBps : Nat
  reputationNft : Option Address
  -- whether the call of the contract at that address, for that borrower, returns
  nftReturns : Address → NftCall → Address → Bool
  slashVoteQuorum : Option Nat
  adminRole : Address → Option AdminRole
  evidenceAppealPending : Address → Bool
  circuitBreakerCooldownSecs : Nat
  maxWithdrawalQueueSize : Nat
  thawDurationSecs : Nat

/-- The context a call runs in: the world, and who signed it. -/
structure Context extends World where
  signers : List Address

/-! ## Storage -/

/-- Guards and registries: lock, pause, rate limits, borrower list, circuit breaker. -/
structure Access where
  locked : Bool
  pauseMode : PauseMode
  paused : Bool
  thawState : Option ThawState
  rateLimit : Address → Nat × Nat
  borrowerList : List Address
  circuitBreakerLastTriggered : Nat
  circuitBreakerHistory : List CircuitBreakerTrigger
  circuitBreakerAcknowledged : Bool

/-- The loans of every borrower, the per-borrower pointers into them, and the
counters kept beside them. -/
structure LoanBook where
  loan : Nat → Option LoanRecord
  activeLoan : Address → Option Nat
  latestLoan : Address → Option Nat
  loanCounter : Nat
  borrowerLoanIds : Address → List Nat
  defaultCount : Address → Nat
  repaymentCount : Address → Nat
  totalDefaultCount : Nat
  totalActiveLoans : Nat
  totalValueLocked : Int

/-- Slash votes and what they lead to. -/
structure Ballots where
  slashVote : Address → Option SlashVoteRecord
  pendingSlash : Address → Option PendingSlashRecord
  voteDelegation : Address → Option Address

/-- Vouches, the withdrawal queues, and the vouchers' histories and caches. -/
structure Vouching where
  vouches : Address → Option (List VouchRecord)
  withdrawalQueue : Address → List QueuedWithdrawal
  voucherStats : Address → Option VoucherStats
  voucherHistory : Address → List Address
  voucherRegistry : List Address
  lastVouchTimestamp : Address → Nat
  lastRotationTimestamp : Address → Option Nat
  rotationBonusBps : Address → Nat
  rotationCount : Address → Nat
  vouchSplitHistory : Address → List VouchSplitRecord
  weightedStakeCache : Address → Address → Option Int
  yieldCache : Address → Address → Option CachedYield

/-- The money, and the vouches that put it there. -/
structure Vault where
  bank : Bank Address Address
  vouching : Vouching

/-- Per-loan and per-borrower records that are neither the loan nor a vouch. -/
structure Terms where
  yieldDistribution : Nat → List YieldDistributionEntry
  paymentHistory : Nat → List PaymentRecord
  covenantConfig : Nat → Option LoanCovenantConfig
  covenantStatus : Nat → Option LoanCovenantStatus
  covenantBreachCount : Nat → Nat
  insuranceFund : Int
  insuranceFundLastContribution : Nat
  refinanceChainCount : Address → Nat
  lastRefinancedAt : Address → Nat
  refinanceRecord : Nat → Option RefinanceRecord
  refinanceStats : RefinanceStats
  loanPoolCounter : Nat
  loanPool : Nat → Option LoanPoolRecord

/-- What slashes leave behind. `loanAtBorrower` is the entry `auto_slash` writes
under `DataKey::Loan(borrower)`: keyed by an address, it is not the entry of
any loan id. The treasury is kept in instance storage; `persistentTreasury` is
the entry of the same key that a rejected appeal writes in persistent storage. -/
structure Slashing where
  slashTreasury : Int
  persistentTreasury : Int
  lastSlashedAt : Address → Option Nat
  slashEscrow : Address → Option EscrowEntry
  slashEscrowAppeal : Address → Option SlashEscrowAppealRecord
  slashRecordCounter : Nat
  slashRecord : Nat → Option SlashRecord
  slashAudit : Address → Option SlashRecord
  slashesByMonth : Nat → List Nat
  loanAtBorrower : Address → Option LoanRecord

/-- The contract's storage, with the token balances it lives among. -/
structure Store where
  access : Access
  book : LoanBook
  ballots : Ballots
  vault : Vault
  terms : Terms
  slashing : Slashing

instance : Host.Part Store Access where
  get := Store.access
  set a s := { s with access := a }
instance : Host.Part Store LoanBook where
  get := Store.book
  set k s := { s with book := k }
instance : Host.Part Store Ballots where
  get := Store.ballots
  set b s := { s with ballots := b }
instance : Host.Part Store Vault where
  get := Store.vault
  set v s := { s with vault := v }
instance : Host.Part Store Terms where
  get := Store.terms
  set t s := { s with terms := t }
instance : Host.Part Store Slashing where
  get := Store.slashing
  set x s := { s with slashing := x }
instance : Host.Part Vault (Bank Address Address) where
  get := Vault.bank
  set b v := { v with bank := b }
instance : Host.Part Vault Vouching where
  get := Vault.vouching
  set x v := { v with vouching := x }

instance : Apart Store.book Access where
instance : Apart Store.book Ballots where
instance : Apart Store.book Vault where
instance : Apart Store.book Terms where
instance : Apart Store.book Slashing where
instance : Apart Store.ballots Access where
instance : Apart Store.ballots LoanBook where
instance : Apart Store.ballots Vault where
instance : Apart Store.ballots Terms where
instance : Apart Store.ballots Slashing where
instance : Apart Store.vault Access where
instance : Apart Store.vault LoanBook where
instance : Apart Store.vault Ballots where
instance : Apart Store.vault Terms where
instance : Apart Store.vault Slashing where

/-- A contract function over the storage component `σ`. -/
abbrev Contract (σ : Type) := Tx Context Failure σ

abbrev Ledger := Bank Address Address

end QuorumCredit
