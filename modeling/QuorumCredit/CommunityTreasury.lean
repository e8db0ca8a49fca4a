import QuorumCredit.Frames
import QuorumCredit.Host.Component
/-!
# The community treasury

`community_treasury.rs`: a balance that the protocol's fees add to and that
accepted proposals take from. The balance is kept as a number beside the token
balances; executing a proposal transfers nothing. The fees of the options and of
the prediction markets are the only deposits.
-/

open Host Function

namespace QuorumCredit

def largeAllocationThresholdBps : Int := 3000
def treasuryVotingPeriodSecs : Nat := 7 * 24 * 60 * 60
def adminApprovalDeadlineSecs : Nat := 30 * 24 * 60 * 60

inductive TreasuryProposalStatus where
  | active | executed | rejected | pendingAdminApproval
deriving DecidableEq, Repr

structure TreasuryProposal where
  id : Nat
  proposer : Address
  recipient : Address
  amount : Int
  description : String
  createdAt : Nat
  votingEndsAt : Nat
  yesVotes : Int
  noVotes : Int
  status : TreasuryProposalStatus
  requiresAdmin : Bool
  adminApprovalDeadline : Option Nat
deriving DecidableEq, Repr

structure TreasuryReport where
  monthId : Nat
  deposited : Int
  spent : Int
  closingBalance : Int
deriving DecidableEq, Repr

/-- The storage entries of the module. -/
structure CommunityTreasury where
  treasuryBalance : Int
  treasuryProposal : Nat → Option TreasuryProposal
  treasuryProposalCounter : Nat
  treasuryVote : Nat → Address → Option Bool
  treasuryReport : Nat → Option TreasuryReport

def CommunityTreasury.empty : CommunityTreasury :=
  { treasuryBalance := 0, treasuryProposal := fun _ => none, treasuryProposalCounter := 0
    treasuryVote := fun _ _ => none, treasuryReport := fun _ => none }

/-- These entries, beside the guards' state. -/
structure TreasuryStore where
  access : Access
  treasury : CommunityTreasury

instance : Part TreasuryStore Access where
  get := TreasuryStore.access
  set a s := { s with access := a }
instance : Part TreasuryStore CommunityTreasury where
  get := TreasuryStore.treasury
  set c s := { s with treasury := c }

/-! ## The balance -/

def updateMonthlyReport (deposited spent : Int) : Contract CommunityTreasury Unit := do
  let ctx ← ask
  let monthId := ctx.now / monthlyPeriodSecs
  let balance ← look (·.treasuryBalance)
  let stored ← look (·.treasuryReport monthId)
  let report := stored.getD { monthId, deposited := 0, spent := 0, closingBalance := 0 }
  let deposited ← i128 .arithmetic (report.deposited + deposited)
  let spent ← i128 .arithmetic (report.spent + spent)
  alter fun c : CommunityTreasury =>
    { c with
      treasuryReport :=
        update c.treasuryReport monthId (some { report with deposited, spent, closingBalance := balance }) }

def setTreasuryBalance (balance : Int) : Contract CommunityTreasury Unit :=
  alter fun c => { c with treasuryBalance := balance }

/-- What the other modules call with a fee they have charged. -/
def depositToTreasury (amount : Int) : Contract CommunityTreasury Unit := do
  if amount ≤ 0 then return ()
  else do
    let balance ← look (·.treasuryBalance)
    let total ← i128 .arithmetic (balance + amount)
    setTreasuryBalance total
    updateMonthlyReport amount 0

/-! ## Proposals -/

def loadTreasuryProposal (proposalId : Nat) : Contract CommunityTreasury TreasuryProposal := do
  orFail (← look (·.treasuryProposal proposalId)) (.error .proposalNotFound)

def saveTreasuryProposal (proposalId : Nat) (proposal : TreasuryProposal) : Contract CommunityTreasury Unit :=
  alter fun c => { c with treasuryProposal := update c.treasuryProposal proposalId (some proposal) }

def nextTreasuryProposalId : Contract CommunityTreasury Nat := do
  let counter ← look (·.treasuryProposalCounter)
  let proposalId ← u64 .arithmetic (counter + 1)
  alter fun c : CommunityTreasury => { c with treasuryProposalCounter := proposalId }
  return proposalId

/-- `approvalTimeoutSecs` is `TREASURY_ADMIN_APPROVAL_TIMEOUT_SECS`, which the source
uses without defining it. The deadline it leads to is not stored. -/
def createProposal (approvalTimeoutSecs : Nat) (proposer recipient : Address) (amount : Int) (description : String) :
    Contract TreasuryStore Nat := do
  requireNotPaused
  requireAuth proposer
  require (0 < amount) (.error .invalidAmount)
  let balance ← look (·.treasury.treasuryBalance)
  require (amount ≤ balance) (.error .insufficientFunds)
  let scaled ← i128 .arithmetic (balance * largeAllocationThresholdBps)
  let requiresAdmin := decide (scaled.tdiv 10000 < amount)
  let proposalId ← nextTreasuryProposalId
  let ctx ← ask
  let _ ← u64 .arithmetic (if requiresAdmin then ctx.now + approvalTimeoutSecs else 0)
  let votingEndsAt ← u64 .arithmetic (ctx.now + treasuryVotingPeriodSecs)
  saveTreasuryProposal proposalId
    { id := proposalId, proposer, recipient, amount, description, createdAt := ctx.now, votingEndsAt, yesVotes := 0
      noVotes := 0, status := .active, requiresAdmin, adminApprovalDeadline := none }
  return proposalId

def voteOnTreasuryProposal (voter : Address) (proposalId : Nat) (approve : Bool) : Contract TreasuryStore Unit := do
  requireNotPaused
  requireAuth voter
  let proposal ← loadTreasuryProposal proposalId
  require (proposal.status = .active) (.error .proposalAlreadyFinalized)
  let ctx ← ask
  require (ctx.now ≤ proposal.votingEndsAt) (.error .votingPeriodEnded)
  let voted ← look (·.treasury.treasuryVote proposalId voter)
  require (voted = none) (.error .alreadyVoted)
  alter fun s : TreasuryStore =>
    { s with
      treasury.treasuryVote :=
        update s.treasury.treasuryVote proposalId (update (s.treasury.treasuryVote proposalId) voter (some approve)) }
  let votes ← i128 .arithmetic ((if approve then proposal.yesVotes else proposal.noVotes) + 1)
  saveTreasuryProposal proposalId
    (if approve then { proposal with yesVotes := votes } else { proposal with noVotes := votes })

/-- Takes the amount off the balance and marks the proposal executed. -/
def executeTreasuryProposal (proposalId : Nat) (proposal : TreasuryProposal) : Contract CommunityTreasury Unit := do
  let balance ← look (·.treasuryBalance)
  require (proposal.amount ≤ balance) (.error .insufficientFunds)
  let rest ← i128 .arithmetic (balance - proposal.amount)
  setTreasuryBalance rest
  saveTreasuryProposal proposalId { proposal with status := .executed }
  updateMonthlyReport 0 proposal.amount

/-- At least two votes, and more for than against. -/
def TreasuryProposal.quorumMet (p : TreasuryProposal) : Bool := 2 ≤ p.yesVotes + p.noVotes ∧ p.noVotes < p.yesVotes

def finalizeProposal (proposalId : Nat) : Contract CommunityTreasury Unit := do
  let proposal ← loadTreasuryProposal proposalId
  require (proposal.status = .active) (.error .proposalAlreadyFinalized)
  let ctx ← ask
  require (proposal.votingEndsAt < ctx.now) (.error .votingPeriodEnded)
  let _ ← i128 .arithmetic (proposal.yesVotes + proposal.noVotes)
  if proposal.quorumMet = false then
    saveTreasuryProposal proposalId { proposal with status := .rejected }
  else if proposal.requiresAdmin = true then do
    let deadline ← u64 .arithmetic (ctx.now + adminApprovalDeadlineSecs)
    saveTreasuryProposal proposalId
      { proposal with status := .pendingAdminApproval, adminApprovalDeadline := some deadline }
  else executeTreasuryProposal proposalId proposal

/-- The deadline of the proposal is not looked at. -/
def adminApproveProposal (adminSigners : List Address) (proposalId : Nat) : Contract TreasuryStore Unit := do
  requireNotPaused
  requireAdminApproval adminSigners
  let proposal ← loadTreasuryProposal proposalId
  require (proposal.status = .pendingAdminApproval) (.error .invalidStateTransition)
  executeTreasuryProposal proposalId proposal

def autoRejectStaleProposal (proposalId : Nat) : Contract TreasuryStore Unit := do
  requireNotPaused
  let proposal ← loadTreasuryProposal proposalId
  require (proposal.status = .pendingAdminApproval) (.error .invalidStateTransition)
  let deadline ← orFail proposal.adminApprovalDeadline (.error .invalidAmount)
  let ctx ← ask
  require (deadline < ctx.now) (.error .invalidAmount)
  saveTreasuryProposal proposalId { proposal with status := .rejected }

inductive TreasuryOp where
  | depositToTreasury (amount : Int)
  | createProposal (proposer recipient : Address) (amount : Int) (description : String)
  | voteOnProposal (voter : Address) (proposalId : Nat) (approve : Bool)
  | finalizeProposal (proposalId : Nat)
  | adminApproveProposal (adminSigners : List Address) (proposalId : Nat)
  | autoRejectStaleProposal (proposalId : Nat)
deriving DecidableEq, Repr

def TreasuryOp.run (approvalTimeoutSecs : Nat) : TreasuryOp → Contract TreasuryStore Unit
  | .depositToTreasury amount => monadLift (QuorumCredit.depositToTreasury amount)
  | .createProposal proposer recipient amount description =>
    discard (QuorumCredit.createProposal approvalTimeoutSecs proposer recipient amount description)
  | .voteOnProposal voter proposalId approve => voteOnTreasuryProposal voter proposalId approve
  | .finalizeProposal proposalId => monadLift (QuorumCredit.finalizeProposal proposalId)
  | .adminApproveProposal signers proposalId => QuorumCredit.adminApproveProposal signers proposalId
  | .autoRejectStaleProposal proposalId => QuorumCredit.autoRejectStaleProposal proposalId

/-- The community treasury as a part of the contract: the other entry points may
change the world and the guards' state. -/
def communityTreasury (approvalTimeoutSecs : Nat) :
    Component World (List Address) Context Failure TreasuryStore TreasuryOp where
  run := TreasuryOp.run approvalTimeoutSecs
  context w signers := { w with signers }
  drift w s w' s' := w.now ≤ w'.now ∧ w'.contract = w.contract ∧ s'.treasury = s.treasury

/-- Nothing deposited yet. -/
def treasuryStart (world : World) (access : Access) : Situated World TreasuryStore := ⟨world, ⟨access, .empty⟩⟩

end QuorumCredit
