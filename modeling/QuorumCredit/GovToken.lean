import QuorumCredit.Frames
import QuorumCredit.Host.Component
import QuorumCredit.Host.Sums
/-!
# The governance token

`governance_token.rs`: GOV tokens minted by the administration and transferred
by their holders, the delegation of their votes, and the proposals they vote on.
No other entry point writes these entries. The supply is kept in the metrics
record, the balances in one record for each holder.
-/

open Host Function

namespace QuorumCredit

def govProposalThresholdBps : Int := 100
def govBpsDenominator : Int := 10000
def govQuorumBps : Int := 1000
def daoVotingPeriodSecs : Nat := 7 * 24 * 60 * 60
def daoTimelockSecs : Nat := 2 * 24 * 60 * 60

structure GovTokenBalance where
  holder : Address
  balance : Int
  firstReceivedAt : Nat
  votesCast : Nat
deriving DecidableEq, Repr

inductive DaoProposalStatus where
  | active | passed | failed | executed | cancelled
deriving DecidableEq, Repr

structure DaoProposal where
  id : Nat
  proposer : Address
  description : String
  votesFor : Int
  votesAgainst : Int
  voters : List Address
  status : DaoProposalStatus
  createdAt : Nat
  votingEndsAt : Nat
  executableAt : Nat
deriving DecidableEq, Repr

structure GovDelegation where
  delegator : Address
  delegate : Address
  setAt : Nat
deriving DecidableEq, Repr

structure GovParticipationMetrics where
  totalSupply : Int
  proposalsCreated : Nat
  totalVotesCast : Nat
  uniqueVoters : Nat
deriving DecidableEq, Repr

/-- The storage entries of the governance token. -/
structure GovToken where
  metrics : GovParticipationMetrics
  tokenBalance : Address → Option GovTokenBalance
  delegation : Address → Option GovDelegation
  proposal : Nat → Option DaoProposal
  proposalCounter : Nat

def GovToken.empty : GovToken :=
  { metrics := ⟨0, 0, 0, 0⟩, tokenBalance := fun _ => none, delegation := fun _ => none, proposal := fun _ => none
    proposalCounter := 0 }

/-- These entries, beside the pause state every call looks at. -/
structure GovStore where
  access : Access
  gov : GovToken

instance : Part GovStore Access where
  get := GovStore.access
  set a s := { s with access := a }
instance : Part GovStore GovToken where
  get := GovStore.gov
  set g s := { s with gov := g }

/-! ## Records -/

namespace GovToken

def loadBalance (g : GovToken) (holder : Address) : GovTokenBalance :=
  (g.tokenBalance holder).getD { holder, balance := 0, firstReceivedAt := 0, votesCast := 0 }

def saveBalance (g : GovToken) (holder : Address) (bal : GovTokenBalance) : GovToken :=
  { g with tokenBalance := update g.tokenBalance holder (some bal) }

def saveMetrics (g : GovToken) (metrics : GovParticipationMetrics) : GovToken := { g with metrics }

def setProposal (g : GovToken) (id : Nat) (proposal : DaoProposal) : GovToken :=
  { g with proposal := update g.proposal id (some proposal) }

def setDelegation (g : GovToken) (delegator : Address) (delegation : Option GovDelegation) : GovToken :=
  { g with delegation := update g.delegation delegator delegation }

/-- Who votes for the holder, one hop of delegation away at most. -/
def resolveDelegate (g : GovToken) (holder : Address) : Address :=
  match g.delegation holder with
  | some delegation => if delegation.delegate ≠ holder then delegation.delegate else holder
  | none => holder

/-- The tokens an account holds. -/
def held (g : GovToken) (holder : Address) : Int := (g.loadBalance holder).balance

end GovToken

def onGov (f : GovToken → GovToken) : Contract GovToken Unit := alter f

def nextProposalId : Contract GovToken Nat := do
  let id ← look (·.proposalCounter)
  let next ← u64 .arithmetic (id + 1)
  onGov fun g => { g with proposalCounter := next }
  return id

/-! ## Entry points -/

/-- The receiving half of a mint and of a transfer. -/
def receiveGov (holder : Address) (amount : Int) : Contract GovToken Unit := do
  let ctx ← ask
  let bal ← look (·.loadBalance holder)
  let balance ← i128 .arithmetic (bal.balance + amount)
  let firstReceivedAt := if bal.balance = 0 then ctx.now else bal.firstReceivedAt
  onGov (·.saveBalance holder { bal with balance, firstReceivedAt })

def mintGovTokens (adminSigners : List Address) (recipient : Address) (amount : Int) : Contract GovStore Unit := do
  requireNotPaused
  requireAdminApproval adminSigners
  require (0 < amount) (.error .invalidAmount)
  receiveGov recipient amount
  let metrics ← look (·.gov.metrics)
  let totalSupply ← i128 .arithmetic (metrics.totalSupply + amount)
  onGov (·.saveMetrics { metrics with totalSupply })

/-- The sender's balance is stored before the receiver's is read, who may be the same. -/
def transferGovTokens (src dst : Address) (amount : Int) : Contract GovStore Unit := do
  requireNotPaused
  requireAuth src
  require (0 < amount) (.error .invalidAmount)
  let bal ← look (·.gov.loadBalance src)
  require (amount ≤ bal.balance) (.error .insufficientFunds)
  let balance ← i128 .arithmetic (bal.balance - amount)
  onGov (·.saveBalance src { bal with balance })
  receiveGov dst amount

def delegateGovVote (delegator delegate : Address) : Contract GovStore Unit := do
  requireNotPaused
  requireAuth delegator
  let ctx ← ask
  let existing ← look (·.gov.delegation delegate)
  require (delegate = delegator ∨ ∀ d, existing = some d → d.delegate ≠ delegator) (.error .circularDelegation)
  onGov (·.setDelegation delegator
    (if delegate = delegator then none else some { delegator, delegate, setAt := ctx.now }))

def createDaoProposal (proposer : Address) (description : String) : Contract GovStore Nat := do
  requireNotPaused
  requireAuth proposer
  let metrics ← look (·.gov.metrics)
  require (metrics.totalSupply ≠ 0) (.error .insufficientFunds)
  let product ← i128 .arithmetic (metrics.totalSupply * govProposalThresholdBps)
  let bal ← look (·.gov.loadBalance proposer)
  require (product.tdiv govBpsDenominator ≤ bal.balance) (.error .insufficientFunds)
  let ctx ← ask
  let id ← nextProposalId
  let votingEndsAt ← u64 .arithmetic (ctx.now + daoVotingPeriodSecs)
  let executableAt ← u64 .arithmetic (votingEndsAt + daoTimelockSecs)
  onGov (·.setProposal id
    { id, proposer, description, votesFor := 0, votesAgainst := 0, voters := [], status := .active
      createdAt := ctx.now, votingEndsAt, executableAt })
  let proposalsCreated ← u64 .arithmetic (metrics.proposalsCreated + 1)
  onGov (·.saveMetrics { metrics with proposalsCreated })
  return id

/-- The votes that must be cast, and those that were. -/
def quorumVotes (metrics : GovParticipationMetrics) (proposal : DaoProposal) : Contract GovToken (Int × Int) := do
  let total ← i128 .arithmetic (proposal.votesFor + proposal.votesAgainst)
  let product ← i128 .arithmetic (metrics.totalSupply * govQuorumBps)
  return (product.tdiv govBpsDenominator, total)

def finalizeProposalStatus (proposal : DaoProposal) : Contract GovToken DaoProposal := do
  let metrics ← look (·.metrics)
  let (quorum, total) ← quorumVotes metrics proposal
  let status : DaoProposalStatus :=
    if total < quorum then .failed else if proposal.votesAgainst < proposal.votesFor then .passed else .failed
  return { proposal with status }

/-- The proposal with `weight` more votes on one side. -/
def addDaoVote (proposal : DaoProposal) (voter : Address) (voteFor : Bool) (weight : Int) :
    Contract GovToken DaoProposal := do
  let votesFor ← i128 .arithmetic (if voteFor = true then proposal.votesFor + weight else proposal.votesFor)
  let votesAgainst ← i128 .arithmetic (if voteFor = true then proposal.votesAgainst else proposal.votesAgainst + weight)
  return { proposal with votesFor, votesAgainst, voters := proposal.voters ++ [voter] }

/-- The metrics and the voter's record count the vote. -/
def countDaoVote (voter : Address) (metrics : GovParticipationMetrics) : Contract GovToken Unit := do
  let totalVotesCast ← u64 .arithmetic (metrics.totalVotesCast + 1)
  onGov (·.saveMetrics { metrics with totalVotesCast })
  let bal ← look (·.loadBalance voter)
  let votesCast ← u32 .arithmetic (bal.votesCast + 1)
  onGov (·.saveBalance voter { bal with votesCast })

def castDaoVote (voter : Address) (proposalId : Nat) (voteFor : Bool) : Contract GovToken Unit := do
  let ctx ← ask
  let proposal ← orFail (← look (·.proposal proposalId)) (.error .proposalNotFound)
  require (proposal.status = .active) (.error .invalidStateTransition)
  if proposal.votingEndsAt < ctx.now then do
    -- finalised before the vote is refused, and the refusal undoes it
    let ended ← finalizeProposalStatus proposal
    onGov (·.setProposal proposalId ended)
    fail (.error .votingPeriodEnded)
  else do
    let effectiveVoter ← look (·.resolveDelegate voter)
    require (∀ existing ∈ proposal.voters, existing ≠ voter ∧ existing ≠ effectiveVoter) (.error .alreadyVoted)
    let weight ← look (·.held effectiveVoter)
    require (weight ≠ 0) (.error .insufficientFunds)
    let voted ← addDaoVote proposal voter voteFor weight
    let metrics ← look (·.metrics)
    let (quorum, total) ← quorumVotes metrics voted
    let voted ← if quorum ≤ total then finalizeProposalStatus voted else pure voted
    onGov (·.setProposal proposalId voted)
    countDaoVote voter metrics

def voteOnProposal (voter : Address) (proposalId : Nat) (voteFor : Bool) : Contract GovStore Unit := do
  requireNotPaused
  requireAuth voter
  castDaoVote voter proposalId voteFor

def finalizeDaoProposal (proposalId : Nat) : Contract GovStore DaoProposalStatus := do
  let ctx ← ask
  let proposal ← orFail (← look (·.gov.proposal proposalId)) (.error .proposalNotFound)
  require (proposal.status = .active) (.error .proposalAlreadyFinalized)
  require (proposal.votingEndsAt < ctx.now) (.error .votingPeriodEnded)
  let ended ← finalizeProposalStatus proposal
  onGov (·.setProposal proposalId ended)
  return ended.status

inductive GovOp where
  | mintGovTokens (adminSigners : List Address) (recipient : Address) (amount : Int)
  | transferGovTokens (src dst : Address) (amount : Int)
  | delegateGovVote (delegator delegate : Address)
  | createDaoProposal (proposer : Address) (description : String)
  | voteOnProposal (voter : Address) (proposalId : Nat) (voteFor : Bool)
  | finalizeDaoProposal (proposalId : Nat)

def GovOp.run : GovOp → Contract GovStore Unit
  | .mintGovTokens signers recipient amount => QuorumCredit.mintGovTokens signers recipient amount
  | .transferGovTokens src dst amount => QuorumCredit.transferGovTokens src dst amount
  | .delegateGovVote delegator delegate => QuorumCredit.delegateGovVote delegator delegate
  | .createDaoProposal proposer description => discard (QuorumCredit.createDaoProposal proposer description)
  | .voteOnProposal voter id voteFor => QuorumCredit.voteOnProposal voter id voteFor
  | .finalizeDaoProposal id => discard (QuorumCredit.finalizeDaoProposal id)

/-- The governance token as a part of the contract: the other entry points may change
the world and the pause state. -/
def govToken : Component World (List Address) Context Failure GovStore GovOp where
  run := GovOp.run
  context w signers := { w with signers }
  drift w s w' s' := w.now ≤ w'.now ∧ s'.gov = s.gov

/-- No tokens minted yet. -/
def govStart (world : World) (access : Access) : Situated World GovStore := ⟨world, ⟨access, .empty⟩⟩

end QuorumCredit
