import QuorumCredit.BridgeAttestation
/-!
# Cross-chain governance

`cross_chain_governance.rs`: proposals that are voted on here and on other chains.
Local votes and attested remote results both add to the proposal's tallies and to
its list of aggregates, one for each chain. The registry of bridges is that of
`vouch.rs`, the attestor keys are those of `cross_chain.rs`.
-/

open Host Function

namespace QuorumCredit

def voteAttestationMaxAgeSecs : Nat := 10 * 60
def voteAttestationMaxSkewSecs : Nat := 60

/-- The stake every local voter counts with. -/
def defaultVoterStake : Int := 1000000

structure BridgeRecord where
  chainId : Nat
  chainName : String
  bridgeAddress : Address
  active : Bool
deriving DecidableEq, Repr

structure ChainVoteAggregate where
  chainId : Nat
  approveStake : Int
  rejectStake : Int
  totalVoters : Nat
deriving DecidableEq, Repr

structure CrossChainProposal where
  proposalId : Nat
  description : String
  action : String
  actionParams : List UInt8
  originChain : Nat
  votingEndsAt : Nat
  executionTime : Nat
  totalParticipatedStake : Int
  approveStake : Int
  rejectStake : Int
  chainVotes : List ChainVoteAggregate
  executed : Bool
deriving DecidableEq, Repr

structure VoteAttestation where
  originChain : Nat
  proposalId : Nat
  approveStake : Int
  rejectStake : Int
  voterCount : Nat
  attestedAt : Nat
  nonce : Nat
  signature : Vector UInt8 64
deriving DecidableEq, Repr

structure CrossChainVote where
  voter : Address
  proposalId : Nat
  approve : Bool
  stake : Int
  chainId : Nat
  timestamp : Nat
deriving DecidableEq, Repr

/-- The storage entries of the module. -/
structure CrossChainGov where
  crossChainProposal : Nat → Option CrossChainProposal
  crossChainVote : Nat → Address → Option CrossChainVote
  crossChainVoteNonceUsed : Nat → Nat → Bool
  voteAttestationNonceUsed : Nat → Nat → Bool

def CrossChainGov.empty : CrossChainGov :=
  { crossChainProposal := fun _ => none, crossChainVote := fun _ _ => none
    crossChainVoteNonceUsed := fun _ _ => false, voteAttestationNonceUsed := fun _ _ => false }

/-- These entries, beside the registered bridges and their keys. -/
structure CrossChainStore where
  registry : List BridgeRecord
  bridges : Bridges
  gov : CrossChainGov

instance : Part CrossChainStore CrossChainGov where
  get := CrossChainStore.gov
  set g s := { s with gov := g }

/-- The host functions behind an attestation of votes. -/
structure VoteHost where
  toXdr : Nat × Nat × Int × Int × Nat × Nat × Nat → List UInt8
  sha256 : List UInt8 → Vector UInt8 32
  ed25519Verify : Vector UInt8 32 → List UInt8 → Vector UInt8 64 → Bool

def voteAttestationMessage (host : VoteHost) (a : VoteAttestation) : List UInt8 :=
  (host.sha256 (host.toXdr
    (a.originChain, a.proposalId, a.approveStake, a.rejectStake, a.voterCount, a.attestedAt, a.nonce))).toList

/-! ## Records -/

def loadCrossChainProposal (proposalId : Nat) : Contract CrossChainGov CrossChainProposal := do
  orFail (← look (·.crossChainProposal proposalId)) (.error .proposalNotFound)

def saveCrossChainProposal (proposalId : Nat) (proposal : CrossChainProposal) : Contract CrossChainGov Unit :=
  alter fun g => { g with crossChainProposal := update g.crossChainProposal proposalId (some proposal) }

/-! ## Entry points -/

def createCrossChainProposal (adminSigners : List Address) (description action : String) (actionParams : List UInt8)
    (originChain votingPeriodSeconds : Nat) : Contract CrossChainGov Nat := do
  requireAdminApproval adminSigners
  require (votingPeriodSeconds ≠ 0) (.error .invalidAmount)
  let ctx ← ask
  let votingEndsAt ← u64 .arithmetic (ctx.now + votingPeriodSeconds)
  let executionTime ← u64 .arithmetic (votingEndsAt + 24 * 60 * 60)
  saveCrossChainProposal ctx.now
    { proposalId := ctx.now, description, action, actionParams, originChain, votingEndsAt, executionTime
      totalParticipatedStake := 0, approveStake := 0, rejectStake := 0, chainVotes := [], executed := false }
  return ctx.now

/-- The aggregates with a local vote added to that of the chain, or to a new one. -/
def addChainVote (chainId : Nat) (approve : Bool) : List ChainVoteAggregate →
    Contract CrossChainGov (List ChainVoteAggregate)
  | [] =>
    return [{ chainId, approveStake := if approve then defaultVoterStake else 0
              rejectStake := if approve then 0 else defaultVoterStake, totalVoters := 1 }]
  | agg :: rest =>
    if agg.chainId = chainId then do
      let totalVoters ← u32 .arithmetic (agg.totalVoters + 1)
      return { agg with
        approveStake := if approve then satI128 (agg.approveStake + defaultVoterStake) else agg.approveStake
        rejectStake := if approve then agg.rejectStake else satI128 (agg.rejectStake + defaultVoterStake)
        totalVoters } :: rest
    else do
      let rest ← addChainVote chainId approve rest
      return agg :: rest

/-- The `CrossChainVote` record is written but never read: only the nonce is checked. -/
def submitCrossChainVote (voter : Address) (proposalId : Nat) (approve : Bool) (chainId nonce : Nat) :
    Contract CrossChainGov Unit := do
  requireAuth voter
  let used ← look (·.crossChainVoteNonceUsed chainId nonce)
  require (used = false) (.error .voteAttestationNonceReused)
  let ctx ← ask
  let proposal ← loadCrossChainProposal proposalId
  require (ctx.now ≤ proposal.votingEndsAt) (.error .votingPeriodEnded)
  let chainVotes ← addChainVote chainId approve proposal.chainVotes
  alter fun g : CrossChainGov =>
    { g with
      crossChainVote := update g.crossChainVote proposalId (update (g.crossChainVote proposalId) voter
        (some { voter, proposalId, approve, stake := defaultVoterStake, chainId, timestamp := ctx.now })) }
  saveCrossChainProposal proposalId
    { proposal with
      approveStake := if approve then satI128 (proposal.approveStake + defaultVoterStake) else proposal.approveStake
      rejectStake := if approve then proposal.rejectStake else satI128 (proposal.rejectStake + defaultVoterStake)
      totalParticipatedStake := satI128 (proposal.totalParticipatedStake + defaultVoterStake)
      chainVotes }
  alter fun g : CrossChainGov =>
    { g with
      crossChainVoteNonceUsed := update g.crossChainVoteNonceUsed chainId
        (update (g.crossChainVoteNonceUsed chainId) nonce true) }

def requireVotesTimely (attestedAt : Nat) : Contract CrossChainStore Unit := do
  let ctx ← ask
  if ctx.now < attestedAt then
    require (attestedAt - ctx.now ≤ voteAttestationMaxSkewSecs) (.error .voteAttestationExpired)
  else require (ctx.now - attestedAt ≤ voteAttestationMaxAgeSecs) (.error .voteAttestationExpired)

def aggregateRemoteVotes (host : VoteHost) (adminSigners : List Address) (proposalId : Nat) (a : VoteAttestation) :
    Contract CrossChainStore Unit := do
  requireAdminApproval adminSigners
  require (a.proposalId = proposalId) (.error .invalidStateTransition)
  let registry ← look (·.registry)
  require (∃ b ∈ registry, b.chainId = a.originChain ∧ b.active = true) (.error .invalidChain)
  let used ← look (·.gov.voteAttestationNonceUsed a.originChain a.nonce)
  require (used = false) (.error .voteAttestationNonceReused)
  requireVotesTimely a.attestedAt
  let publicKey ← orFail (← look (·.bridges.bridgePublicKey a.originChain)) (.error .bridgeNotConfigured)
  require (host.ed25519Verify publicKey (voteAttestationMessage host a) a.signature = true) .signature
  alter fun s : CrossChainStore =>
    { s with
      gov.voteAttestationNonceUsed := update s.gov.voteAttestationNonceUsed a.originChain
        (update (s.gov.voteAttestationNonceUsed a.originChain) a.nonce true) }
  let proposal ← loadCrossChainProposal proposalId
  let ctx ← ask
  require (ctx.now ≤ proposal.votingEndsAt) (.error .votingPeriodEnded)
  let reported ← i128 .arithmetic (a.approveStake + a.rejectStake)
  saveCrossChainProposal proposalId
    { proposal with
      approveStake := satI128 (proposal.approveStake + a.approveStake)
      rejectStake := satI128 (proposal.rejectStake + a.rejectStake)
      totalParticipatedStake := satI128 (proposal.totalParticipatedStake + reported)
      chainVotes := proposal.chainVotes ++
        [{ chainId := a.originChain, approveStake := a.approveStake, rejectStake := a.rejectStake
           totalVoters := a.voterCount }] }

/-- More approval than rejection, and more aggregates than half of the active
bridges; with no active bridge no aggregate is needed. -/
def proposalMeetsQuorum (registry : List BridgeRecord) (proposal : CrossChainProposal) :
    Contract CrossChainStore Bool :=
  if proposal.approveStake ≤ proposal.rejectStake then return false
  else do
    let activeChains := (registry.filter (·.active)).length
    if activeChains = 0 then return true
    else do
      let doubled ← u32 .arithmetic (proposal.chainVotes.length * 2)
      return decide (activeChains < doubled)

def executeCrossChainProposal (adminSigners : List Address) (proposalId : Nat) : Contract CrossChainStore Unit := do
  requireAdminApproval adminSigners
  let proposal ← loadCrossChainProposal proposalId
  require (proposal.executed = false) (.error .proposalAlreadyFinalized)
  let ctx ← ask
  require (proposal.votingEndsAt < ctx.now) (.error .votingPeriodEnded)
  require (proposal.executionTime ≤ ctx.now) (.error .timelockDelayNotElapsed)
  let registry ← look (·.registry)
  let quorum ← proposalMeetsQuorum registry proposal
  require (quorum = true) (.error .quorumNotMet)
  saveCrossChainProposal proposalId { proposal with executed := true }

inductive CrossChainOp where
  | createCrossChainProposal (adminSigners : List Address) (description action : String) (actionParams : List UInt8)
      (originChain votingPeriodSeconds : Nat)
  | submitCrossChainVote (voter : Address) (proposalId : Nat) (approve : Bool) (chainId nonce : Nat)
  | aggregateRemoteVotes (adminSigners : List Address) (proposalId : Nat) (attestation : VoteAttestation)
  | executeCrossChainProposal (adminSigners : List Address) (proposalId : Nat)
deriving DecidableEq, Repr

def CrossChainOp.run (host : VoteHost) : CrossChainOp → Contract CrossChainStore Unit
  | .createCrossChainProposal signers description action params chain period =>
    discard (monadLift (QuorumCredit.createCrossChainProposal signers description action params chain period))
  | .submitCrossChainVote voter proposalId approve chainId nonce =>
    monadLift (QuorumCredit.submitCrossChainVote voter proposalId approve chainId nonce)
  | .aggregateRemoteVotes signers proposalId attestation =>
    QuorumCredit.aggregateRemoteVotes host signers proposalId attestation
  | .executeCrossChainProposal signers proposalId => QuorumCredit.executeCrossChainProposal signers proposalId

/-- Cross-chain governance as a part of the contract: the other entry points may
change the world, the registered bridges and their keys. -/
def crossChainGovernance (host : VoteHost) :
    Component World (List Address) Context Failure CrossChainStore CrossChainOp where
  run := CrossChainOp.run host
  context w signers := { w with signers }
  drift w s w' s' := w.now ≤ w'.now ∧ w'.contract = w.contract ∧ s'.gov = s.gov

abbrev CrossChainHistory := List
    (Situated World CrossChainStore × Event World (List Address) CrossChainStore CrossChainOp)

/-- No proposal created yet. -/
def crossChainStart (world : World) (registry : List BridgeRecord) (bridges : Bridges) :
    Situated World CrossChainStore :=
  ⟨world, ⟨registry, bridges, .empty⟩⟩

end QuorumCredit
