import QuorumCredit.CommunityTreasury
import QuorumCredit.FlashLoan
import QuorumCredit.GovToken
import QuorumCredit.LazySlash
import QuorumCredit.LoanCart
import QuorumCredit.LoanPriority
import QuorumCredit.PauseGuards
import QuorumCredit.VouchSyndication
/-!
# What goes on while the contract is paused

The contract with its slash queue, its loan carts, the timelocked slashes, the
waterfalls, the vouch syndicates, the flash loans, the DAO and the community
treasury, and the entry points that lend, vouch, slash, hear appeals, pay out and
execute what was decided. Each is settled: it refuses every call while the contract
is paused, or there is a paused state the contract can reach in which a call of it
goes through.
-/

open Host Function

namespace QuorumCredit

/-! ## Timelocked slashes -/

/-- Any address may propose; `eta` is when the slash can be executed. -/
def proposeSlash (proposer borrower : Address) (delaySecs : Nat) : Tx AdminContext Failure ProtocolStore Unit := do
  let ctx ← ask
  zoom (Admin.requireAuth proposer)
  zoom (guard requireNotPaused)
  let _ ← orFail (← look (·.core.book.getActiveLoanRecord borrower)) (.error .noActiveLoan)
  zoom (Admin.requireNextId (·.timelocks) .arithmeticOverflow)
  let eta ← u64 .arithmetic (ctx.now + delaySecs)
  zoom (Admin.addTimelock (.slash borrower) proposer eta)

def executeSlashProposal (proposalId : Nat) : Tx AdminContext Failure ProtocolStore Unit := do
  let ctx ← ask
  zoom (guard requireNotPaused)
  let proposal ← zoom (Admin.load (·.timelocks) proposalId .noActiveLoan)
  require (proposal.executed = false) (.error .slashAlreadyExecuted)
  require (proposal.cancelled = false) (.error .noActiveLoan)
  require (proposal.eta ≤ ctx.now) (.error .noActiveLoan)
  let expiry ← u64 .arithmetic (proposal.eta + timelockExpiry)
  require (ctx.now ≤ expiry) (.error .noActiveLoan)
  match proposal.action with
  | .slash borrower => do
    zoom (Admin.storeTimelock proposalId { proposal with executed := true })
    under (fun ctx s => s.governed.context ctx) (zoom (executeSlash borrower))
  | .setConfig _ => fail (.error .noActiveLoan)

/-! ## The contract with its queues -/

/-- A call of the contract. -/
inductive LendingOp where
  | core (op : Op)
  | admin (op : AdminOp)
  | queueSlash (adminSigners : List Address) (borrower : Address) (slashAmount : Int)
  | executeQueuedSlashes (adminSigners : List Address)
  | proposeSlash (proposer borrower : Address) (delaySecs : Nat)
  | executeSlashProposal (proposalId : Nat)
  | addToLoanCart (borrower : Address) (amount : Int) (tenureSecs : Nat)
  | removeCartItem (borrower : Address) (itemIndex : Nat)
  | updateCartItem (borrower : Address) (itemIndex : Nat) (amount : Int) (tenureSecs : Nat)
  | abandonLoanCart (borrower : Address)
  | submitBatchLoanRequest (borrower : Address) (loanPurpose : String) (threshold : Int) (token : Address)
  | loanStatus (borrower : Address)
  | loanStatusExtended (borrower : Address)
  | isEligible (borrower : Address) (threshold : Int) (token : Address)
  | monitorLoanCovenants (loanId : Nat)
  | setBorrowerRiskScore (adminSigners : List Address) (borrower : Address) (riskScore : Nat)
  | priority (op : PriorityOp)
  | syndicate (op : VouchSyndicateOp)
  | flash (op : FlashOp)
  | gov (op : GovOp)
  /-- `approvalTimeoutSecs` is the constant that the treasury uses and no code defines. -/
  | treasury (approvalTimeoutSecs : Nat) (op : TreasuryOp)

structure LendingStore where
  protocol : ProtocolStore
  slashQueue : List LazySlashEntry
  carts : Carts
  priorities : LoanPriorities
  syndicates : VouchSyndicates
  flashLoans : FlashLoans
  gov : GovToken
  treasury : CommunityTreasury

instance : Host.Part LendingStore ProtocolStore where
  get := LendingStore.protocol
  set x s := { s with protocol := x }
instance : Host.Part LendingStore SlashQueueStore where
  get s := { core := s.protocol.core, queue := s.slashQueue }
  set x s := { s with protocol := { s.protocol with core := x.core }, slashQueue := x.queue }
instance : Host.Part LendingStore CartStore where
  get s := { store := s.protocol.core, carts := s.carts }
  set x s := { s with protocol := { s.protocol with core := x.store }, carts := x.carts }
instance : Host.Part LendingStore Store where
  get s := s.protocol.core
  set x s := { s with protocol.core := x }
instance : Host.Part LendingStore PriorityStore where
  get s := { book := s.protocol.core.book, bank := s.protocol.core.vault.bank, priorities := s.priorities }
  set x s := { s with protocol.core.book := x.book, protocol.core.vault.bank := x.bank, priorities := x.priorities }
instance : Host.Part LendingStore VouchSyndicateStore where
  get s := { bank := s.protocol.core.vault.bank, syndicates := s.syndicates }
  set x s := { s with protocol.core.vault.bank := x.bank, syndicates := x.syndicates }
instance : Host.Part LendingStore FlashStore where
  get s :=
    { access := s.protocol.core.access, bank := s.protocol.core.vault.bank, flashLoans := s.flashLoans }
  set x s :=
    { s with protocol.core.access := x.access, protocol.core.vault.bank := x.bank, flashLoans := x.flashLoans }
instance : Host.Part LendingStore GovStore where
  get s := { access := s.protocol.core.access, gov := s.gov }
  set x s := { s with protocol.core.access := x.access, gov := x.gov }
instance : Host.Part LendingStore TreasuryStore where
  get s := { access := s.protocol.core.access, treasury := s.treasury }
  set x s := { s with protocol.core.access := x.access, treasury := x.treasury }

/-- A function of the core, in the world that the administration has set up. -/
def inCore {σ : Type} [Host.Part LendingStore σ] (x : Contract σ Unit) : Tx AdminContext Failure LendingStore Unit :=
  under (fun ctx s => s.protocol.governed.context ctx) (zoom x)

/-- A function that asks callers to authorise it. -/
def invoke (x : Tx AdminContext Failure ProtocolStore Unit) : Tx AdminContext Failure LendingStore Unit :=
  zoom (do
    alter fun s : ProtocolStore => { s with authorised := [] }
    x)

/-- The function behind each call. -/
def LendingOp.dispatch : LendingOp → Tx AdminContext Failure LendingStore Unit
  | .core op => zoom (ProtocolOp.core op).invoke
  | .admin op => zoom (ProtocolOp.admin op).invoke
  | .queueSlash signers borrower amount => inCore (queueSlashGov signers borrower amount)
  | .executeQueuedSlashes signers => inCore (discard (executeQueuedSlashesGov signers))
  | .proposeSlash proposer borrower delaySecs => invoke (QuorumCredit.proposeSlash proposer borrower delaySecs)
  | .executeSlashProposal proposalId => invoke (QuorumCredit.executeSlashProposal proposalId)
  | .addToLoanCart borrower amount tenureSecs =>
    inCore (zoom (discard (QuorumCredit.addToLoanCart borrower amount tenureSecs)) : Contract CartStore Unit)
  | .removeCartItem borrower itemIndex =>
    inCore (zoom (discard (QuorumCredit.removeCartItem borrower itemIndex)) : Contract CartStore Unit)
  | .updateCartItem borrower itemIndex amount tenureSecs =>
    inCore (zoom (discard (QuorumCredit.updateCartItem borrower itemIndex amount tenureSecs)) : Contract CartStore Unit)
  | .abandonLoanCart borrower => inCore (zoom (QuorumCredit.abandonLoanCart borrower) : Contract CartStore Unit)
  | .submitBatchLoanRequest borrower purpose threshold token =>
    inCore (discard (QuorumCredit.submitBatchLoanRequest borrower purpose threshold token))
  -- the two read the loan as `get_loan` does
  | .loanStatus borrower | .loanStatusExtended borrower =>
    inCore (zoom (discard (QuorumCredit.getLoan borrower)) : Contract Store Unit)
  | .isEligible borrower threshold token => inCore (discard (QuorumCredit.isEligible borrower threshold token))
  | .monitorLoanCovenants loanId =>
    inCore (zoom (discard (QuorumCredit.monitorLoanCovenants loanId)) : Contract Store Unit)
  | .setBorrowerRiskScore signers borrower riskScore =>
    inCore (QuorumCredit.setBorrowerRiskScore signers borrower riskScore)
  | .priority op => inCore op.run
  | .syndicate op => inCore op.run
  | .flash op => inCore op.run
  | .gov op => inCore op.run
  | .treasury approvalTimeoutSecs op => inCore (op.run approvalTimeoutSecs)

/-- The contract as a component. Elsewhere, what is kept beside the protocol stays as it is. -/
def lending : Component AdminWorld (List Address) AdminContext Failure LendingStore LendingOp where
  run := LendingOp.dispatch
  context w signers := { w with signers }
  drift w s w' t := ∃ x, ProtocolDrift w s.protocol w' x ∧ t = { s with protocol := x }

abbrev LendingState := Situated AdminWorld LendingStore

abbrev LendingEvent := Event AdminWorld (List Address) LendingStore LendingOp

/-- The contract just after `initialize`, with nothing queued or staged. -/
def Deployment.startLending (d : Deployment) (w : AdminWorld) (bank : Ledger) : LendingState :=
  { world := w
    store :=
      { protocol := (d.start w bank).store, slashQueue := []
        carts := { cart := fun _ => none, stats := ⟨0, 0, 0, 0, 0, 0⟩ }
        priorities := .empty, syndicates := .empty, flashLoans := .initial, gov := .empty, treasury := .empty } }

/-- The history of the contract from some deployment on, and the state it has reached. -/
def LendingHistory (h : List (LendingState × LendingEvent)) (s : LendingState) : Prop :=
  ∃ (d : Deployment) (w : AdminWorld) (bank : Ledger), Run lending.Step (d.startLending w bank) h s

/-- The contract is paused, by its mode or by the emergency switch. -/
def LendingStore.Paused (s : LendingStore) : Prop := s.protocol.core.access.Shut s.protocol.admin.config.toConfig

instance (s : LendingStore) : Decidable s.Paused := inferInstanceAs (Decidable (Access.Shut _ _))

/-! ## Entry points -/

/-- The entry points of the loans, the vouches, the slashes, the appeals, the
withdrawals, the treasuries, and of what governance executes. -/
inductive EntryPoint where
  -- loans
  | requestLoan | repay | repayPartial | refinanceLoan | createLoanPool | claimExpiredLoan | getLoan | getLoanById
  | checkAllDefaults | initializeLoanCovenants
  | addToLoanCart | removeCartItem | updateCartItem | abandonLoanCart | submitBatchLoanRequest
  | loanStatus | loanStatusExtended | isEligible | setBorrowerRiskScore | monitorLoanCovenants
  | createLoanPriorityQueue | routeDefaultProceeds | proposePriorityChange | approvePriorityChange
  | flashLoan | repayFlashLoan
  -- vouches and withdrawals
  | vouch | batchVouch | increaseStake | decreaseStake | withdrawVouch | requestWithdrawal | partialWithdraw
  | transferVouch | splitVouch | rotateToNewBorrower | queueWithdrawal | executeWithdrawal
  | createVouchSyndicate | distributeSyndicateRewards | proposeSyndicateAction | voteSyndicateProposal
  | executeSyndicateProposal
  -- slashes and appeals
  | slash | autoSlash | delegateVote | revokeVoteDelegation | voteSlash | executeSlashVote | executePendingSlash
  | queueSlash | executeQueuedSlashes | proposeSlash | executeSlashProposal | cancelSlashProposal | reverseSlash
  | appealSlash | voteAppeal | finalizeAppeal
  -- the treasuries
  | releaseSlashEscrow | slashTreasury | withdrawSlashTreasury
  | createTreasuryProposal | voteTreasuryProposal | finalizeTreasuryProposal | adminApproveTreasuryProposal
  -- governance
  | proposeAdminAction | approveAdminAction | executeAdminAction | proposeGovernanceAction | approveGovernanceAction
  | rejectGovernanceAction | executeGovernanceAction | cancelGovernanceAction | finalizeConfigUpdate
  | proposeConfigChange | executeConfigChange | cancelConfigChange | proposeSlashThreshold | voteSlashThreshold
  | finalizeSlashThreshold | proposeAdminRemoval | voteAdminRemoval | finalizeAdminRemoval | createDaoProposal
  | voteOnProposal | finalizeDaoProposal
deriving DecidableEq, Repr

/-- The entry point of a call of the core. -/
def Op.entryPoint : Op → EntryPoint
  | .vouch .. => .vouch
  | .increaseStake .. => .increaseStake
  | .decreaseStake .. => .decreaseStake
  | .withdrawVouch .. => .withdrawVouch
  | .requestWithdrawal .. => .requestWithdrawal
  | .requestLoan .. => .requestLoan
  | .repay .. => .repay
  | .repayPartial .. => .repayPartial
  | .refinanceLoan .. => .refinanceLoan
  | .createLoanPool .. => .createLoanPool
  | .slash .. => .slash
  | .autoSlash .. => .autoSlash
  | .claimExpiredLoan .. => .claimExpiredLoan
  | .delegateVote .. => .delegateVote
  | .revokeVoteDelegation .. => .revokeVoteDelegation
  | .voteSlash .. => .voteSlash
  | .executeSlashVote .. => .executeSlashVote
  | .executePendingSlash .. => .executePendingSlash
  | .getLoan .. => .getLoan
  | .getLoanById .. => .getLoanById
  | .checkAllDefaults .. => .checkAllDefaults
  | .initializeLoanCovenants .. => .initializeLoanCovenants
  | .batchVouch .. => .batchVouch
  | .partialWithdraw .. => .partialWithdraw
  | .transferVouch .. => .transferVouch
  | .splitVouch .. => .splitVouch
  | .rotateToNewBorrower .. => .rotateToNewBorrower
  | .reverseSlash .. => .reverseSlash
  | .releaseSlashEscrow .. => .releaseSlashEscrow
  | .slashTreasury .. => .slashTreasury
  | .withdrawSlashTreasury .. => .withdrawSlashTreasury
  | .appealSlash .. => .appealSlash
  | .voteAppeal .. => .voteAppeal
  | .finalizeAppeal .. => .finalizeAppeal

/-- The entry point of a call of the administration, where it is one of these. -/
def AdminOp.entryPoint : AdminOp → Option EntryPoint
  | .queueWithdrawal .. => some .queueWithdrawal
  | .executeWithdrawal .. => some .executeWithdrawal
  | .cancelSlashProposal .. => some .cancelSlashProposal
  | .proposeAdminAction .. => some .proposeAdminAction
  | .approveAdminAction .. => some .approveAdminAction
  | .executeAdminAction .. => some .executeAdminAction
  | .proposeGovernanceAction .. => some .proposeGovernanceAction
  | .approveGovernanceAction .. => some .approveGovernanceAction
  | .rejectGovernanceAction .. => some .rejectGovernanceAction
  | .executeGovernanceAction .. => some .executeGovernanceAction
  | .cancelGovernanceAction .. => some .cancelGovernanceAction
  | .finalizeConfigUpdate .. => some .finalizeConfigUpdate
  | .proposeConfigChange .. => some .proposeConfigChange
  | .executeConfigChange .. => some .executeConfigChange
  | .cancelConfigChange .. => some .cancelConfigChange
  | .proposeSlashThreshold .. => some .proposeSlashThreshold
  | .voteSlashThreshold .. => some .voteSlashThreshold
  | .finalizeSlashThreshold .. => some .finalizeSlashThreshold
  | .proposeAdminRemoval .. => some .proposeAdminRemoval
  | .voteAdminRemoval .. => some .voteAdminRemoval
  | .finalizeAdminRemoval .. => some .finalizeAdminRemoval
  | _ => none

def PriorityOp.entryPoint : PriorityOp → EntryPoint
  | .createLoanPriorityQueue .. => .createLoanPriorityQueue
  | .routeDefaultProceeds .. => .routeDefaultProceeds
  | .proposePriorityChange .. => .proposePriorityChange
  | .approvePriorityChange .. => .approvePriorityChange

/-- Rewards and slashes are recorded by other code, and nothing exports the way to leave a pool. -/
def VouchSyndicateOp.entryPoint : VouchSyndicateOp → Option EntryPoint
  | .createVouchSyndicate .. => some .createVouchSyndicate
  | .distributeSyndicateRewards _ => some .distributeSyndicateRewards
  | .proposeSyndicateAction .. => some .proposeSyndicateAction
  | .voteSyndicateProposal .. => some .voteSyndicateProposal
  | .executeSyndicateProposal .. => some .executeSyndicateProposal
  | .creditSyndicateReward .. | .recordSyndicateSlash .. | .leaveSyndicate .. => none

/-- The allowlist is set by the administration. -/
def FlashOp.entryPoint : FlashOp → Option EntryPoint
  | .flashLoan .. => some .flashLoan
  | .repayFlashLoan .. => some .repayFlashLoan
  | .setFlashLoanCallbackAllowed .. => none

/-- The proposals; the tokens are not of these entry points. -/
def GovOp.entryPoint : GovOp → Option EntryPoint
  | .createDaoProposal .. => some .createDaoProposal
  | .voteOnProposal .. => some .voteOnProposal
  | .finalizeDaoProposal _ => some .finalizeDaoProposal
  | .mintGovTokens .. | .transferGovTokens .. | .delegateGovVote .. => none

/-- Fees are deposited by other code, and nothing exports the rejection of what is stale. -/
def TreasuryOp.entryPoint : TreasuryOp → Option EntryPoint
  | .createProposal .. => some .createTreasuryProposal
  | .voteOnProposal .. => some .voteTreasuryProposal
  | .finalizeProposal _ => some .finalizeTreasuryProposal
  | .adminApproveProposal .. => some .adminApproveTreasuryProposal
  | .depositToTreasury _ | .autoRejectStaleProposal _ => none

def LendingOp.entryPoint : LendingOp → Option EntryPoint
  | .core op => some op.entryPoint
  | .admin op => op.entryPoint
  | .queueSlash .. => some .queueSlash
  | .executeQueuedSlashes .. => some .executeQueuedSlashes
  | .proposeSlash .. => some .proposeSlash
  | .executeSlashProposal .. => some .executeSlashProposal
  | .addToLoanCart .. => some .addToLoanCart
  | .removeCartItem .. => some .removeCartItem
  | .updateCartItem .. => some .updateCartItem
  | .abandonLoanCart .. => some .abandonLoanCart
  | .submitBatchLoanRequest .. => some .submitBatchLoanRequest
  | .loanStatus _ => some .loanStatus
  | .loanStatusExtended _ => some .loanStatusExtended
  | .isEligible .. => some .isEligible
  | .setBorrowerRiskScore .. => some .setBorrowerRiskScore
  | .monitorLoanCovenants _ => some .monitorLoanCovenants
  | .priority op => some op.entryPoint
  | .syndicate op => op.entryPoint
  | .flash op => op.entryPoint
  | .gov op => op.entryPoint
  | .treasury _ op => op.entryPoint

/-- The entry points whose code checks the pause before it writes. -/
def EntryPoint.checksPause : EntryPoint → Bool
  | .createLoanPool | .claimExpiredLoan | .getLoan | .getLoanById | .checkAllDefaults | .initializeLoanCovenants
  | .addToLoanCart | .removeCartItem | .updateCartItem | .abandonLoanCart | .submitBatchLoanRequest | .loanStatus
  | .loanStatusExtended | .isEligible | .setBorrowerRiskScore | .monitorLoanCovenants | .createLoanPriorityQueue
  | .routeDefaultProceeds | .proposePriorityChange | .approvePriorityChange | .repayFlashLoan
  | .createVouchSyndicate | .distributeSyndicateRewards | .proposeSyndicateAction | .voteSyndicateProposal
  | .executeSyndicateProposal | .executeWithdrawal | .autoSlash | .queueSlash | .executeQueuedSlashes
  | .cancelSlashProposal | .releaseSlashEscrow | .slashTreasury | .withdrawSlashTreasury | .finalizeTreasuryProposal
  | .proposeAdminAction | .approveAdminAction | .executeAdminAction | .proposeGovernanceAction
  | .approveGovernanceAction | .rejectGovernanceAction | .executeGovernanceAction | .cancelGovernanceAction
  | .finalizeDaoProposal => false
  | _ => true

theorem Op.checksPause_entryPoint (op : Op) : op.entryPoint.checksPause = op.checksPause := by
  cases op <;> rfl

theorem AdminOp.checksPause_of_entryPoint {op : AdminOp} {p : EntryPoint} (hop : op.entryPoint = some p)
    (hchecks : p.checksPause = true) : op.checksPause = true := by
  cases op <;> cases hop <;> first | rfl | cases hchecks

/-! ## The check -/

section

variable {ctx : AdminContext} {s : LendingStore}

theorem guard_shut {g : Governed} (h : g.access.Shut g.admin.config.toConfig) (Q : Unit → Governed → Prop) :
    Yields (guard requireNotPaused) ctx g Q := by
  rw [guard, yields_under, yields_zoom]
  exact requireNotPaused_shut h _

/-- A call whose entry point checks the pause does not go through while the contract is paused. -/
theorem dispatch_paused (hpaused : s.Paused) {op : LendingOp} {p : EntryPoint} (hop : op.entryPoint = some p)
    (hchecks : p.checksPause = true) : Yields op.dispatch ctx s fun _ _ => False := by
  cases op with
  | core op =>
    cases hop
    rw [Op.checksPause_entryPoint] at hchecks
    rw [LendingOp.dispatch, yields_zoom, yields_invoke_core]
    exact dispatch_shut hchecks hpaused
  | admin op =>
    have hguards := AdminOp.checksPause_of_entryPoint hop hchecks
    rw [LendingOp.dispatch, yields_zoom, yields_invoke_admin]
    exact Admin.dispatch_blocked hguards fun _ => guard_shut hpaused
  | proposeSlash proposer borrower delaySecs =>
    simp only [LendingOp.dispatch, invoke, QuorumCredit.proposeSlash, yields_steps, yields_zoom,
      Admin.yields_requireAuth]
    intro _
    refine guard_shut ?_ _
    exact hpaused
  | executeSlashProposal proposalId =>
    simp only [LendingOp.dispatch, invoke, QuorumCredit.executeSlashProposal, yields_steps, yields_zoom]
    refine guard_shut ?_ _
    exact hpaused
  | priority op => cases op <;> cases hop <;> cases hchecks
  | syndicate op => cases op <;> cases hop <;> cases hchecks
  | flash op =>
    cases op with
    | flashLoan =>
      simp only [LendingOp.dispatch, inCore, FlashOp.run, flashLoan, yields_under, yields_parts, yields_bind]
      refine requireNotPaused_shut ?_ _
      exact hpaused
    | _ => cases hop <;> cases hchecks
  | gov op =>
    cases op with
    | createDaoProposal | voteOnProposal =>
      simp only [LendingOp.dispatch, inCore, GovOp.run, discard, createDaoProposal, voteOnProposal, yields_under,
        yields_parts, yields_bind]
      refine requireNotPaused_shut ?_ _
      exact hpaused
    | _ => cases hop <;> cases hchecks
  | treasury approvalTimeoutSecs op =>
    cases op with
    | createProposal | voteOnProposal | adminApproveProposal =>
      simp only [LendingOp.dispatch, inCore, TreasuryOp.run, discard, createProposal, voteOnTreasuryProposal,
        adminApproveProposal, yields_under, yields_parts, yields_bind]
      refine requireNotPaused_shut ?_ _
      exact hpaused
    | _ => cases hop <;> cases hchecks
  | _ =>
    cases hop
    cases hchecks

end

/-! ## Without the check -/

/-- Where the scripts start. -/
def lendingStart : LendingState := sampleDeployment.startLending sampleAdminWorld sampleBank

/-- Loans are issued, one is slashed and one is slashed from the queue; a slash, a
withdrawal, an admin action, a governance action, a syndicate's dissolution and the
proposals of the treasury and of the DAO are ready to be executed. -/
def prepared : List (List Address × LendingOp) :=
  [([2], .core (.vouch 2 10 1000000 100 0)), ([2], .core (.vouch 2 11 1000000 100 0)),
    ([2], .core (.vouch 2 12 1000000 100 0)), ([2], .core (.vouch 2 13 1000000 100 0)),
    ([1, 2], .core (.createLoanPool [1, 2] [10, 12, 13] [500000, 500000, 500000])),
    ([1, 2], .core (.slash [1, 2] 12)), ([1, 2], .queueSlash [1, 2] 13 1), ([1, 2], .executeQueuedSlashes [1, 2]),
    ([1, 2], .queueSlash [1, 2] 10 1), ([5], .proposeSlash 5 10 0), ([2], .admin (.queueWithdrawal 2 10 1000 100 0)),
    ([1], .admin (.proposeAdminAction 1 (.setMinStake 5))), ([1], .admin (.approveAdminAction 1 1)),
    ([2], .admin (.approveAdminAction 2 1)), ([1], .admin (.proposeAdminAction 1 (.setMinStake 6))),
    ([1, 2], .admin (.setGovernanceQueueConfig [1, 2] ⟨1, 100000000, true⟩)),
    ([1], .admin (.proposeGovernanceAction 1 (.setMinStake 7) "")), ([1], .admin (.approveGovernanceAction 1 1)),
    ([2], .admin (.approveGovernanceAction 2 1)), ([1], .admin (.proposeGovernanceAction 1 (.setMinStake 8) "")),
    ([14], .addToLoanCart 14 500000 2592000),
    ([1, 2], .priority (.createLoanPriorityQueue [1, 2] 7 [⟨1, 10, .senior, 100⟩])),
    ([1], .priority (.proposePriorityChange 1 7 1 .junior)),
    ([5], .syndicate (.createVouchSyndicate 5 9 100 [⟨5, 1000⟩])), ([], .syndicate (.creditSyndicateReward 9 100)),
    ([5], .syndicate (.proposeSyndicateAction 9 5 "")), ([5], .syndicate (.voteSyndicateProposal 9 1 5 true)),
    ([5], .syndicate (.proposeSyndicateAction 9 5 "")), ([1, 2], .gov (.mintGovTokens [1, 2] 5 100)),
    ([5], .gov (.createDaoProposal 5 "")), ([], .treasury 0 (.depositToTreasury 1000)),
    ([5], .treasury 0 (.createProposal 5 20 100 "")), ([], .core (.initializeLoanCovenants 1 10000 10000 31536000))]

/-- Time passes, and the loans are overdue. -/
def afterDeadlines : LendingState :=
  { lending.play lendingStart prepared with world := { sampleAdminWorld with now := 10000000 } }

/-- The administration pauses the contract. -/
def pausedState : LendingState := lending.after afterDeadlines [1, 2] (.admin (.direct [1, 2] .pause))

/-- A call of the entry point. -/
def EntryPoint.call : EntryPoint → List Address × LendingOp
  | .createLoanPool => ([1, 2], .core (.createLoanPool [1, 2] [11] [500000]))
  | .claimExpiredLoan => ([10], .core (.claimExpiredLoan 10))
  | .getLoan => ([], .core (.getLoan 10))
  | .getLoanById => ([], .core (.getLoanById 1))
  | .checkAllDefaults => ([], .core (.checkAllDefaults 10))
  | .initializeLoanCovenants => ([], .core (.initializeLoanCovenants 1 10000 10000 31536000))
  | .addToLoanCart => ([14], .addToLoanCart 14 600000 2592000)
  | .removeCartItem => ([14], .removeCartItem 14 0)
  | .updateCartItem => ([14], .updateCartItem 14 0 600000 2592000)
  | .abandonLoanCart => ([14], .abandonLoanCart 14)
  | .submitBatchLoanRequest => ([14], .submitBatchLoanRequest 14 "" 0 100)
  | .loanStatus => ([], .loanStatus 10)
  | .loanStatusExtended => ([], .loanStatusExtended 10)
  | .isEligible => ([], .isEligible 11 1 100)
  | .monitorLoanCovenants => ([], .monitorLoanCovenants 1)
  | .setBorrowerRiskScore => ([1, 2], .setBorrowerRiskScore [1, 2] 10 50)
  | .createLoanPriorityQueue => ([1, 2], .priority (.createLoanPriorityQueue [1, 2] 8 [⟨1, 10, .senior, 100⟩]))
  | .routeDefaultProceeds => ([1, 2], .priority (.routeDefaultProceeds [1, 2] 7 100))
  | .proposePriorityChange => ([1], .priority (.proposePriorityChange 1 7 1 .mezzanine))
  | .approvePriorityChange => ([2], .priority (.approvePriorityChange 2 1))
  | .repayFlashLoan => ([20], .flash (.repayFlashLoan 20 1000000 500))
  | .createVouchSyndicate => ([6], .syndicate (.createVouchSyndicate 6 8 100 [⟨6, 1000⟩]))
  | .distributeSyndicateRewards => ([], .syndicate (.distributeSyndicateRewards 9))
  | .proposeSyndicateAction => ([5], .syndicate (.proposeSyndicateAction 9 5 ""))
  | .voteSyndicateProposal => ([5], .syndicate (.voteSyndicateProposal 9 2 5 true))
  | .executeSyndicateProposal => ([], .syndicate (.executeSyndicateProposal 9 1))
  | .finalizeTreasuryProposal => ([], .treasury 0 (.finalizeProposal 1))
  | .finalizeDaoProposal => ([], .gov (.finalizeDaoProposal 0))
  | .executeWithdrawal => ([], .admin (.executeWithdrawal 1))
  | .autoSlash => ([], .core (.autoSlash 10))
  | .queueSlash => ([1, 2], .queueSlash [1, 2] 10 1)
  | .executeQueuedSlashes => ([1, 2], .executeQueuedSlashes [1, 2])
  | .cancelSlashProposal => ([5], .admin (.cancelSlashProposal 5 1))
  | .releaseSlashEscrow => ([1, 2], .core (.releaseSlashEscrow [1, 2] 13))
  | .slashTreasury => ([1, 2], .core (.slashTreasury [1, 2] 20))
  | .withdrawSlashTreasury => ([1, 2], .core (.withdrawSlashTreasury [1, 2] 20 1))
  | .proposeAdminAction => ([1], .admin (.proposeAdminAction 1 (.setMinStake 9)))
  | .approveAdminAction => ([1], .admin (.approveAdminAction 1 2))
  | .executeAdminAction => ([], .admin (.executeAdminAction 1))
  | .proposeGovernanceAction => ([1], .admin (.proposeGovernanceAction 1 (.setMinStake 9) ""))
  | .approveGovernanceAction => ([1], .admin (.approveGovernanceAction 1 2))
  | .rejectGovernanceAction => ([2], .admin (.rejectGovernanceAction 2 2))
  | .executeGovernanceAction => ([], .admin (.executeGovernanceAction 1))
  | .cancelGovernanceAction => ([1], .admin (.cancelGovernanceAction 1 2))
  | _ => ([], .admin (.beginThaw []))

/-- Time may pass, and nothing else happen. -/
theorem step_later (s : LendingState) (w : AdminWorld) (hnow : s.world.now ≤ w.now)
    (hcontract : w.contract = s.world.contract) :
    lending.Step s (.elsewhere w s.store) { s with world := w } := by
  refine .elsewhere ⟨s.store.protocol, ?_, rfl⟩
  exact .elsewhere hnow hcontract (.inl ⟨rfl, rfl, rfl, rfl, rfl, rfl⟩)

/-- The history that leads there. -/
def deadlinesHistory : List (LendingState × LendingEvent) :=
  (lending.play lendingStart prepared, .elsewhere { sampleAdminWorld with now := 10000000 }
    (lending.play lendingStart prepared).store) :: lending.trace lendingStart [] prepared

theorem afterDeadlines_history : LendingHistory deadlinesHistory afterDeadlines := by
  have hprepared : Run lending.Step lendingStart (lending.trace lendingStart [] prepared)
      (lending.play lendingStart prepared) :=
    lending.run_play .nil prepared
  have hworld : (lending.play lendingStart prepared).world = sampleAdminWorld :=
    lending.play_world lendingStart prepared
  have hlater := step_later (lending.play lendingStart prepared) { sampleAdminWorld with now := 10000000 }
    (by rw [hworld]; decide) (by rw [hworld])
  exact ⟨sampleDeployment, sampleAdminWorld, sampleBank, hprepared.snoc hlater⟩

theorem pausedState_history : ∃ h, LendingHistory h pausedState := by
  obtain ⟨d, w, bank, hr⟩ := afterDeadlines_history
  have hpause := Component.Step.call (C := lending) afterDeadlines [1, 2] (.admin (.direct [1, 2] .pause))
  exact ⟨_, d, w, bank, hr.snoc hpause⟩

theorem pausedState_paused : pausedState.store.Paused := by decide +kernel

/-- What does not check the pause goes through while the contract is paused. -/
theorem unchecked_goes {p : EntryPoint} (h : p.checksPause = false) :
    p.call.2.entryPoint = some p ∧ (lending.exec pausedState p.call.1 p.call.2).isSome = true := by
  cases p with
  | createLoanPool | claimExpiredLoan | getLoan | getLoanById | checkAllDefaults | initializeLoanCovenants
  | addToLoanCart | removeCartItem | updateCartItem | abandonLoanCart | submitBatchLoanRequest | loanStatus
  | loanStatusExtended | isEligible | setBorrowerRiskScore | monitorLoanCovenants | createLoanPriorityQueue
  | routeDefaultProceeds | proposePriorityChange | approvePriorityChange | repayFlashLoan | createVouchSyndicate
  | distributeSyndicateRewards | proposeSyndicateAction | voteSyndicateProposal | executeSyndicateProposal
  | finalizeTreasuryProposal | finalizeDaoProposal | executeWithdrawal | autoSlash | queueSlash
  | executeQueuedSlashes | cancelSlashProposal | releaseSlashEscrow | slashTreasury | withdrawSlashTreasury
  | proposeAdminAction | approveAdminAction | executeAdminAction | proposeGovernanceAction | approveGovernanceAction
  | rejectGovernanceAction | executeGovernanceAction | cancelGovernanceAction =>
    exact ⟨rfl, by decide +kernel⟩
  | _ => cases h

end QuorumCredit
