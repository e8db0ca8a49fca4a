import QuorumCredit.Frames
import QuorumCredit.Host.Batch
import QuorumCredit.Host.Component
/-!
# Vouch syndication

`vouch_syndication.rs`: vouchers pool their stake, share the rewards by basis
points of it, and take their part out again or dissolve the pool by a vote. The
members are listed in the pool, and each has a record under its address. No other
entry point writes these entries.
-/

open Host Function

namespace QuorumCredit

structure SyndicateContribution where
  member : Address
  amount : Int
deriving DecidableEq, Repr

structure SyndicatePool where
  poolId : Nat
  creator : Address
  token : Address
  members : List Address
  totalStake : Int
  pendingRewards : Int
  createdAt : Nat
  active : Bool
deriving DecidableEq, Repr

structure SyndicateMember where
  member : Address
  contribution : Int
  shareBps : Nat
  rewardsReceived : Int
deriving DecidableEq, Repr

structure SyndicatePerformance where
  poolId : Nat
  totalRewardsDistributed : Int
  totalSlashed : Int
  distributionCount : Nat
deriving DecidableEq, Repr

inductive SyndicateProposalStatus where
  | pending | approved | rejected | executed
deriving DecidableEq, Repr

structure SyndicateProposal where
  poolId : Nat
  proposalId : Nat
  proposer : Address
  description : String
  votesForBps : Nat
  votesAgainstBps : Nat
  status : SyndicateProposalStatus
  createdAt : Nat
deriving DecidableEq, Repr

/-- The storage entries of the vouch syndicates. -/
structure VouchSyndicates where
  syndicatePool : Nat → Option SyndicatePool
  syndicateMember : Nat → Address → Option SyndicateMember
  syndicatePerformance : Nat → Option SyndicatePerformance
  syndicateProposalCounter : Nat → Nat
  syndicateProposal : Nat → Nat → Option SyndicateProposal
  syndicateProposalVote : Nat → Nat → Address → Bool

def VouchSyndicates.empty : VouchSyndicates :=
  { syndicatePool := fun _ => none, syndicateMember := fun _ _ => none, syndicatePerformance := fun _ => none
    syndicateProposalCounter := fun _ => 0, syndicateProposal := fun _ _ => none
    syndicateProposalVote := fun _ _ _ => false }

/-- These entries and the money. -/
structure VouchSyndicateStore where
  bank : Ledger
  syndicates : VouchSyndicates

instance : Part VouchSyndicateStore (Bank Address Address) where
  get := VouchSyndicateStore.bank
  set b s := { s with bank := b }
instance : Part VouchSyndicateStore VouchSyndicates where
  get := VouchSyndicateStore.syndicates
  set g s := { s with syndicates := g }

namespace VouchSyndicates

def setPool (g : VouchSyndicates) (poolId : Nat) (pool : SyndicatePool) : VouchSyndicates :=
  { g with syndicatePool := update g.syndicatePool poolId (some pool) }

def setMember (g : VouchSyndicates) (poolId : Nat) (a : Address) (m : Option SyndicateMember) : VouchSyndicates :=
  { g with syndicateMember := update g.syndicateMember poolId (update (g.syndicateMember poolId) a m) }

def setPerformance (g : VouchSyndicates) (poolId : Nat) (perf : SyndicatePerformance) : VouchSyndicates :=
  { g with syndicatePerformance := update g.syndicatePerformance poolId (some perf) }

def setProposal (g : VouchSyndicates) (poolId proposalId : Nat) (proposal : SyndicateProposal) : VouchSyndicates :=
  { g with
    syndicateProposal :=
      update g.syndicateProposal poolId (update (g.syndicateProposal poolId) proposalId (some proposal)) }

end VouchSyndicates

def onSyndicates (f : VouchSyndicates → VouchSyndicates) : Contract VouchSyndicates Unit := alter f

def getSyndicatePool (poolId : Nat) : Contract VouchSyndicates SyndicatePool := do
  orFail (← look (·.syndicatePool poolId)) (.error .syndicatePoolNotFound)

def getSyndicateMember (poolId : Nat) (a : Address) : Contract VouchSyndicates SyndicateMember := do
  orFail (← look (·.syndicateMember poolId a)) (.error .notSyndicateMember)

def bpsOf {σ : Type} (amount total : Int) : Contract σ Nat :=
  if total ≤ 0 then return 0
  else do
    let scaled ← i128 .arithmetic (amount * 10000)
    let quotient ← divI128 .arithmetic scaled total
    return (quotient % (u32Max + 1)).toNat

/-! ## Entry points -/

/-- The contributions come in, and are added up. -/
def takeContributions (token : Address) : List SyndicateContribution → Int → Contract Ledger Int
  | [], total => return total
  | c :: rest, total => do
    require (0 < c.amount) (.error .invalidAmount)
    requireAuth c.member
    collect token c.member c.amount
    let total ← i128 (.error .stakeOverflow) (total + c.amount)
    takeContributions token rest total

/-- A record for each contribution: a later one of the same member replaces the earlier. -/
def recordContributions (poolId : Nat) (total : Int) : List SyndicateContribution → Contract VouchSyndicates Unit
  | [] => return ()
  | c :: rest => do
    let shareBps ← bpsOf c.amount total
    onSyndicates (·.setMember poolId c.member
      (some { member := c.member, contribution := c.amount, shareBps, rewardsReceived := 0 }))
    recordContributions poolId total rest

def createVouchSyndicate (creator : Address) (poolId : Nat) (token : Address)
    (contributions : List SyndicateContribution) : Contract VouchSyndicateStore Unit := do
  requireAuth creator
  let existing ← look (·.syndicates.syndicatePool poolId)
  require (existing = none) (.error .syndicatePoolExists)
  require (contributions ≠ []) (.error .syndicateEmpty)
  requireAllowedToken token
  let totalStake ← takeContributions token contributions 0
  recordContributions poolId totalStake contributions
  let ctx ← ask
  onSyndicates fun g =>
    (g.setPool poolId
      { poolId, creator, token, members := contributions.map (·.member), totalStake, pendingRewards := 0
        createdAt := ctx.now, active := true }).setPerformance poolId
      { poolId, totalRewardsDistributed := 0, totalSlashed := 0, distributionCount := 0 }

def creditSyndicateReward (poolId : Nat) (amount : Int) : Contract VouchSyndicates Unit := do
  require (0 < amount) (.error .invalidAmount)
  let pool ← getSyndicatePool poolId
  require (pool.active = true) (.error .syndicateNotActive)
  let pendingRewards ← i128 (.error .arithmeticError) (pool.pendingRewards + amount)
  onSyndicates (·.setPool poolId { pool with pendingRewards })

def recordSyndicateSlash (poolId : Nat) (amount : Int) : Contract VouchSyndicates Unit := do
  let perf ← orFail (← look (·.syndicatePerformance poolId)) (.error .syndicatePoolNotFound)
  let totalSlashed ← i128 (.error .arithmeticError) (perf.totalSlashed + amount)
  onSyndicates (·.setPerformance poolId { perf with totalSlashed })

/-- The loop of `distribute_syndicate_rewards`. -/
def distributeShares (poolId : Nat) (token : Address) (rewards : Int) :
    List Address → Int → Contract VouchSyndicateStore Int
  | [], distributed => return distributed
  | a :: rest, distributed => do
    let member ← getSyndicateMember poolId a
    let scaled ← i128 .arithmetic (rewards * member.shareBps)
    let share := scaled.tdiv 10000
    if 0 < share then do
      pay token a share
      let rewardsReceived ← i128 (.error .arithmeticError) (member.rewardsReceived + share)
      onSyndicates (·.setMember poolId a (some { member with rewardsReceived }))
      let distributed ← i128 (.error .arithmeticError) (distributed + share)
      distributeShares poolId token rewards rest distributed
    else distributeShares poolId token rewards rest distributed

def distributeSyndicateRewards (poolId : Nat) : Contract VouchSyndicateStore Unit := do
  let pool ← getSyndicatePool poolId
  require (pool.active = true) (.error .syndicateNotActive)
  require (0 < pool.totalStake) (.error .syndicateEmpty)
  if pool.pendingRewards ≤ 0 then return ()
  else do
    requireAllowedToken pool.token
    let distributed ← distributeShares poolId pool.token pool.pendingRewards pool.members 0
    let pendingRewards ← i128 (.error .arithmeticError) (pool.pendingRewards - distributed)
    onSyndicates (·.setPool poolId { pool with pendingRewards })
    let perf ← orFail (← look (·.syndicates.syndicatePerformance poolId)) (.error .syndicatePoolNotFound)
    let totalRewardsDistributed ← i128 (.error .arithmeticError) (perf.totalRewardsDistributed + distributed)
    onSyndicates (·.setPerformance poolId
      { perf with totalRewardsDistributed, distributionCount := min u32Max (perf.distributionCount + 1) })

def proposeSyndicateAction (poolId : Nat) (proposer : Address) (description : String) :
    Contract VouchSyndicates Nat := do
  requireAuth proposer
  let _ ← getSyndicateMember poolId proposer
  let counter ← look (·.syndicateProposalCounter poolId)
  let proposalId ← u64 (.error .arithmeticError) (counter + 1)
  let ctx ← ask
  onSyndicates fun g =>
    { g.setProposal poolId proposalId
        { poolId, proposalId, proposer, description, votesForBps := 0, votesAgainstBps := 0, status := .pending
          createdAt := ctx.now } with
      syndicateProposalCounter := update g.syndicateProposalCounter poolId proposalId }
  return proposalId

def SyndicateProposal.counting (proposal : SyndicateProposal) (approve : Bool) (shareBps : Nat) : SyndicateProposal :=
  let proposal :=
    if approve = true then { proposal with votesForBps := min u32Max (proposal.votesForBps + shareBps) }
    else { proposal with votesAgainstBps := min u32Max (proposal.votesAgainstBps + shareBps) }
  if 5000 ≤ proposal.votesForBps then { proposal with status := .approved }
  else if 5000 ≤ proposal.votesAgainstBps then { proposal with status := .rejected }
  else proposal

def voteSyndicateProposal (poolId proposalId : Nat) (voter : Address) (approve : Bool) :
    Contract VouchSyndicates Unit := do
  requireAuth voter
  let member ← getSyndicateMember poolId voter
  let voted ← look (·.syndicateProposalVote poolId proposalId voter)
  require (voted = false) (.error .syndicateAlreadyVoted)
  let proposal ← orFail (← look (·.syndicateProposal poolId proposalId)) (.error .syndicateProposalNotFound)
  if proposal.status ≠ .pending then return ()
  else
    onSyndicates fun g =>
      { g.setProposal poolId proposalId (proposal.counting approve member.shareBps) with
        syndicateProposalVote :=
          update g.syndicateProposalVote poolId
            (update (g.syndicateProposalVote poolId) proposalId
              (update (g.syndicateProposalVote poolId proposalId) voter true)) }

/-- The loop of `execute_syndicate_proposal`. -/
def returnContributions (poolId : Nat) (token : Address) : List Address → Contract VouchSyndicateStore Unit
  | [] => return ()
  | a :: rest => do
    let member ← getSyndicateMember poolId a
    if 0 < member.contribution then do
      pay token a member.contribution
      returnContributions poolId token rest
    else returnContributions poolId token rest

/-- Whatever it says, an approved proposal dissolves the pool. -/
def executeSyndicateProposal (poolId proposalId : Nat) : Contract VouchSyndicateStore Unit := do
  let proposal ← orFail (← look (·.syndicates.syndicateProposal poolId proposalId)) (.error .syndicateProposalNotFound)
  require (proposal.status = .approved) (.error .invalidStateTransition)
  let pool ← getSyndicatePool poolId
  require (pool.active = true) (.error .syndicateNotActive)
  requireAllowedToken pool.token
  returnContributions poolId pool.token pool.members
  onSyndicates fun g =>
    (g.setPool poolId { pool with active := false, totalStake := 0 }).setProposal poolId proposalId
      { proposal with status := .executed }

/-- The shares of those who remain, of the stake that remains. -/
def recomputeShares (poolId : Nat) (total : Int) : List Address → Contract VouchSyndicates Unit
  | [] => return ()
  | a :: rest => do
    let member ← getSyndicateMember poolId a
    let shareBps ← bpsOf member.contribution total
    onSyndicates (·.setMember poolId a (some { member with shareBps }))
    recomputeShares poolId total rest

def leaveSyndicate (poolId : Nat) (member : Address) : Contract VouchSyndicateStore Unit := do
  requireAuth member
  let pool ← getSyndicatePool poolId
  let record ← getSyndicateMember poolId member
  let scaled ← i128 .arithmetic (pool.totalStake * record.shareBps)
  let returnedStake := min (scaled.tdiv 10000) pool.totalStake
  let remaining ← i128 .arithmetic (pool.totalStake - returnedStake)
  require (¬ (pool.active = true ∧ remaining ≤ 0)) (.error .invalidStateTransition)
  requireAllowedToken pool.token
  pay pool.token member returnedStake
  onSyndicates (·.setMember poolId member none)
  let members := pool.members.filter (· ≠ member)
  if 0 < remaining then recomputeShares poolId remaining members else pure ()
  onSyndicates (·.setPool poolId { pool with totalStake := remaining, members })

inductive VouchSyndicateOp where
  | createVouchSyndicate (creator : Address) (poolId : Nat) (token : Address)
      (contributions : List SyndicateContribution)
  | creditSyndicateReward (poolId : Nat) (amount : Int)
  | recordSyndicateSlash (poolId : Nat) (amount : Int)
  | distributeSyndicateRewards (poolId : Nat)
  | proposeSyndicateAction (poolId : Nat) (proposer : Address) (description : String)
  | voteSyndicateProposal (poolId proposalId : Nat) (voter : Address) (approve : Bool)
  | executeSyndicateProposal (poolId proposalId : Nat)
  | leaveSyndicate (poolId : Nat) (member : Address)

def VouchSyndicateOp.run : VouchSyndicateOp → Contract VouchSyndicateStore Unit
  | .createVouchSyndicate creator p token contributions =>
    QuorumCredit.createVouchSyndicate creator p token contributions
  | .creditSyndicateReward p amount => monadLift (QuorumCredit.creditSyndicateReward p amount)
  | .recordSyndicateSlash p amount => monadLift (QuorumCredit.recordSyndicateSlash p amount)
  | .distributeSyndicateRewards p => QuorumCredit.distributeSyndicateRewards p
  | .proposeSyndicateAction p proposer description =>
    discard (monadLift (QuorumCredit.proposeSyndicateAction p proposer description))
  | .voteSyndicateProposal p id voter approve => monadLift (QuorumCredit.voteSyndicateProposal p id voter approve)
  | .executeSyndicateProposal p id => QuorumCredit.executeSyndicateProposal p id
  | .leaveSyndicate p member => QuorumCredit.leaveSyndicate p member

/-- The vouch syndicates as a part of the contract: the other entry points may change
the world and the money. -/
def vouchSyndicates : Component World (List Address) Context Failure VouchSyndicateStore VouchSyndicateOp where
  run := VouchSyndicateOp.run
  context w signers := { w with signers }
  drift w s w' s' := w.now ≤ w'.now ∧ w'.contract = w.contract ∧ s'.syndicates = s.syndicates

abbrev VouchSyndicateHistory :=
  List (Situated World VouchSyndicateStore × Event World (List Address) VouchSyndicateStore VouchSyndicateOp)

/-- No pool yet. -/
def vouchSyndicateStart (world : World) (bank : Ledger) : Situated World VouchSyndicateStore := ⟨world, ⟨bank, .empty⟩⟩

end QuorumCredit
