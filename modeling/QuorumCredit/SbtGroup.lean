import QuorumCredit.Guards
import QuorumCredit.Host.Script
/-!
# Group credentials

`sbt_group.rs`: a credential owned by a group, whose owners propose and vote on
changes to their own list. A proposal is checked against the list when it is made
and changes the list when a vote brings it to the quorum of that moment.
-/

open Host Function

namespace QuorumCredit

def maxGroupOwners : Nat := 20
def maxGroupMetadataBytes : Nat := 512

inductive MembershipAction where
  | add | remove
deriving DecidableEq, Repr

structure GroupMembershipProposal where
  proposalId : Nat
  target : Address
  action : MembershipAction
  createdAt : Nat
  approvals : List Address
  rejections : List Address
  executed : Bool
deriving DecidableEq, Repr

structure GroupSbt where
  groupId : Nat
  owners : List Address
  metadata : List UInt8
  createdAt : Nat
  proposalCounter : Nat
deriving DecidableEq, Repr

/-- The storage entries of the module. -/
structure SbtGroups where
  sbtGroupCounter : Nat
  sbtGroup : Nat → Option GroupSbt
  sbtGroupProposal : Nat → Nat → Option GroupMembershipProposal

def SbtGroups.empty : SbtGroups :=
  { sbtGroupCounter := 0, sbtGroup := fun _ => none, sbtGroupProposal := fun _ _ => none }

/-- These entries, beside the pause state. -/
structure SbtStore where
  access : Access
  groups : SbtGroups

instance : Part SbtStore Access where
  get := SbtStore.access
  set a s := { s with access := a }
instance : Part SbtStore SbtGroups where
  get := SbtStore.groups
  set g s := { s with groups := g }

/-! ## Storage helpers -/

def nextGroupId : Contract SbtGroups Nat := do
  let id ← look (·.sbtGroupCounter)
  let next ← u64 .arithmetic (id + 1)
  alter fun g : SbtGroups => { g with sbtGroupCounter := next }
  return next

def loadGroup (groupId : Nat) : Contract SbtGroups GroupSbt := do
  orFail (← look (·.sbtGroup groupId)) (.error .sbtGroupNotFound)

def saveGroup (group : GroupSbt) : Contract SbtGroups Unit :=
  alter fun g => { g with sbtGroup := update g.sbtGroup group.groupId (some group) }

def loadProposal (groupId proposalId : Nat) : Contract SbtGroups GroupMembershipProposal := do
  orFail (← look (·.sbtGroupProposal groupId proposalId)) (.error .sbtGroupProposalNotFound)

def saveProposal (groupId : Nat) (proposal : GroupMembershipProposal) : Contract SbtGroups Unit :=
  alter fun g =>
    { g with
      sbtGroupProposal := update g.sbtGroupProposal groupId
        (update (g.sbtGroupProposal groupId) proposal.proposalId (some proposal)) }

/-! ## Entry points -/

def createGroupSbt (caller : Address) (owners : List Address) (metadata : List UInt8) : Contract SbtStore Nat := do
  requireNotPaused
  requireAuth caller
  require (owners ≠ [] ∧ owners.length ≤ maxGroupOwners) (.error .invalidAmount)
  require (caller ∈ owners) (.error .unauthorizedCaller)
  require (metadata.length ≤ maxGroupMetadataBytes) (.error .invalidAmount)
  let groupId ← nextGroupId
  let ctx ← ask
  saveGroup { groupId, owners, metadata, createdAt := ctx.now, proposalCounter := 0 }
  return groupId

/-- The action makes sense for the current owners. -/
def validateAction (owners : List Address) (target : Address) : MembershipAction → Contract SbtStore Unit
  | .add => do
    require (target ∉ owners) (.error .invalidAmount)
    require (owners.length < maxGroupOwners) (.error .invalidAmount)
  | .remove => do
    require (target ∈ owners) (.error .invalidAmount)
    require (1 < owners.length) (.error .invalidAmount)

def proposeGroupMembershipChange (proposer : Address) (groupId : Nat) (target : Address) (action : MembershipAction) :
    Contract SbtStore Nat := do
  requireNotPaused
  requireAuth proposer
  let group ← loadGroup groupId
  require (proposer ∈ group.owners) (.error .unauthorizedCaller)
  validateAction group.owners target action
  let proposalId ← u64 .arithmetic (group.proposalCounter + 1)
  let ctx ← ask
  saveGroup { group with proposalCounter := proposalId }
  saveProposal groupId
    { proposalId, target, action, createdAt := ctx.now, approvals := [proposer], rejections := [], executed := false }
  return proposalId

def GroupMembershipProposal.ballot (proposal : GroupMembershipProposal) (voter : Address) (approve : Bool) :
    GroupMembershipProposal :=
  if approve then { proposal with approvals := proposal.approvals ++ [voter] }
  else { proposal with rejections := proposal.rejections ++ [voter] }

/-- More than half of the current owner count. -/
def GroupSbt.quorumThreshold (group : GroupSbt) : Nat := group.owners.length / 2 + 1

def executeMembershipChange (group : GroupSbt) (proposal : GroupMembershipProposal) : GroupSbt :=
  match proposal.action with
  | .add => { group with owners := group.owners ++ [proposal.target] }
  | .remove => { group with owners := group.owners.filter (· ≠ proposal.target) }

def voteGroupMembership (voter : Address) (groupId proposalId : Nat) (approve : Bool) : Contract SbtStore Unit := do
  requireNotPaused
  requireAuth voter
  let group ← loadGroup groupId
  let proposal ← loadProposal groupId proposalId
  require (proposal.executed = false) (.error .invalidStateTransition)
  require (voter ∈ group.owners) (.error .unauthorizedCaller)
  require (voter ∉ proposal.approvals ∧ voter ∉ proposal.rejections) (.error .alreadyVoted)
  let proposal := proposal.ballot voter approve
  -- the approvals are counted whoever gave them; a rejection is counted against nothing
  if group.quorumThreshold ≤ proposal.approvals.length then do
    saveGroup (executeMembershipChange group proposal)
    saveProposal groupId { proposal with executed := true }
  else do
    saveGroup group
    saveProposal groupId proposal

inductive SbtOp where
  | createGroupSbt (caller : Address) (owners : List Address) (metadata : List UInt8)
  | proposeGroupMembershipChange (proposer : Address) (groupId : Nat) (target : Address) (action : MembershipAction)
  | voteGroupMembership (voter : Address) (groupId proposalId : Nat) (approve : Bool)
deriving DecidableEq, Repr

def SbtOp.run : SbtOp → Contract SbtStore Unit
  | .createGroupSbt caller owners metadata => discard (QuorumCredit.createGroupSbt caller owners metadata)
  | .proposeGroupMembershipChange proposer groupId target action =>
    discard (QuorumCredit.proposeGroupMembershipChange proposer groupId target action)
  | .voteGroupMembership voter groupId proposalId approve =>
    QuorumCredit.voteGroupMembership voter groupId proposalId approve

/-- The group credentials as a part of the contract: the other entry points may change the world and the pause state. -/
def sbtGroups : Component World (List Address) Context Failure SbtStore SbtOp where
  run := SbtOp.run
  context w signers := { w with signers }
  drift w s w' s' := w.now ≤ w'.now ∧ s'.groups = s.groups

abbrev SbtHistory := List (Situated World SbtStore × Event World (List Address) SbtStore SbtOp)

/-- No group yet. -/
def sbtStart (world : World) (access : Access) : Situated World SbtStore := ⟨world, ⟨access, .empty⟩⟩

end QuorumCredit
