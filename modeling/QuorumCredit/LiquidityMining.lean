import QuorumCredit.Frames
import QuorumCredit.Host.Component
/-!
# Liquidity mining

`liquidity_mining.rs`: campaigns that share a pool of reward tokens among those who
have recorded participation. The campaign's record is used by the source but
declared nowhere in it; its fields here are those of the one place that builds it.
No other module uses these entries.
-/

open Host Function

namespace QuorumCredit

inductive MiningCampaignStatus where
  | active | ended | cancelled
deriving DecidableEq, Repr

inductive MiningCampaignType where
  | proportionalStake | flatPerVoucher | reputationWeighted
deriving DecidableEq, Repr

structure MiningCampaign where
  campaignId : Nat
  creator : Address
  token : Address
  incentivePool : Int
  distributed : Int
  startTimestamp : Nat
  endTimestamp : Nat
  campaignType : MiningCampaignType
  status : MiningCampaignStatus
  totalParticipation : Int
  participantCount : Nat
deriving DecidableEq, Repr

/-- The storage entries of the module. -/
structure Mining where
  miningCampaign : Nat → Option MiningCampaign
  miningCampaignCounter : Nat
  miningParticipation : Nat → Address → Int
  miningClaimed : Nat → Address → Int

def Mining.empty : Mining :=
  { miningCampaign := fun _ => none, miningCampaignCounter := 0, miningParticipation := fun _ _ => 0
    miningClaimed := fun _ _ => 0 }

/-- These entries, beside the money. -/
structure MiningStore where
  bank : Ledger
  mining : Mining

instance : Part MiningStore (Bank Address Address) where
  get := MiningStore.bank
  set b s := { s with bank := b }
instance : Part MiningStore Mining where
  get := MiningStore.mining
  set g s := { s with mining := g }

/-! ## Records -/

def loadCampaign (campaignId : Nat) : Contract Mining MiningCampaign := do
  orFail (← look (·.miningCampaign campaignId)) (.error .invalidAmount)

/-- A campaign is stored under its own id. -/
def saveCampaign (campaign : MiningCampaign) : Contract Mining Unit :=
  alter fun g => { g with miningCampaign := update g.miningCampaign campaign.campaignId (some campaign) }

def nextCampaignId : Contract Mining Nat := do
  let id ← look (·.miningCampaignCounter)
  let next ← u64 .arithmetic (id + 1)
  alter fun g : Mining => { g with miningCampaignCounter := next }
  return next

def setParticipation (campaignId : Nat) (participant : Address) (weight : Int) : Contract Mining Unit :=
  alter fun g =>
    { g with
      miningParticipation :=
        update g.miningParticipation campaignId (update (g.miningParticipation campaignId) participant weight) }

def setClaimed (campaignId : Nat) (participant : Address) (amount : Int) : Contract Mining Unit :=
  alter fun g =>
    { g with
      miningClaimed := update g.miningClaimed campaignId (update (g.miningClaimed campaignId) participant amount) }

/-- `checked_sub(..).unwrap_or(0)`. -/
def subOrZero (x y : Int) : Int := if FitsI128 (x - y) then x - y else 0

/-! ## Entry points -/

def createMiningCampaign (adminSigners : List Address) (token : Address) (incentivePool : Int) (durationSecs : Nat)
    (campaignType : MiningCampaignType) : Contract MiningStore Nat := do
  requireAdminApproval adminSigners
  require (0 < incentivePool) (.error .invalidAmount)
  require (durationSecs ≠ 0) (.error .invalidAmount)
  requireAllowedToken token
  let ctx ← ask
  let sponsor ← orFail adminSigners.head? (.error .invalidAmount)
  let before ← look (·.bank.balance token ctx.contract)
  collect token sponsor incentivePool
  let after ← look (·.bank.balance token ctx.contract)
  let received ← i128 (.error .stakeOverflow) (after - before)
  require (received = incentivePool) (.error .insufficientFunds)
  let campaignId ← nextCampaignId
  let endTimestamp ← u64 .arithmetic (ctx.now + durationSecs)
  saveCampaign
    { campaignId, creator := sponsor, token, incentivePool, distributed := 0, startTimestamp := ctx.now, endTimestamp
      campaignType, status := .active, totalParticipation := 0, participantCount := 0 }
  return campaignId

/-- The weight a call of `record_participation` adds. -/
def effectiveWeight (campaign : MiningCampaign) (stakeWeight : Int) : Int :=
  if campaign.campaignType = .flatPerVoucher then 1 else stakeWeight

def recordParticipation (campaignId : Nat) (participant : Address) (stakeWeight : Int) : Contract Mining Unit := do
  requireAuth participant
  require (0 < stakeWeight) (.error .invalidAmount)
  let campaign ← loadCampaign campaignId
  require (campaign.status = .active) (.error .invalidStateTransition)
  let ctx ← ask
  require (ctx.now < campaign.endTimestamp) (.error .invalidStateTransition)
  require (campaign.startTimestamp ≤ ctx.now) (.error .invalidStateTransition)
  let prev ← look (·.miningParticipation campaignId participant)
  let newWeight ← i128 (.error .stakeOverflow) (prev + effectiveWeight campaign stakeWeight)
  setParticipation campaignId participant newWeight
  let participantCount ← u32 .arithmetic (if prev = 0 then campaign.participantCount + 1 else campaign.participantCount)
  let totalParticipation ←
    i128 (.error .stakeOverflow) (campaign.totalParticipation + effectiveWeight campaign stakeWeight)
  saveCampaign { campaign with participantCount, totalParticipation }

/-- Ends a campaign whose time is over. -/
def autoEnd (campaign : MiningCampaign) : Contract Mining MiningCampaign := do
  let ctx ← ask
  if campaign.status = .active ∧ campaign.endTimestamp ≤ ctx.now then do
    saveCampaign { campaign with status := .ended }
    return { campaign with status := .ended }
  else return campaign

def claimMiningReward (campaignId : Nat) (participant : Address) : Contract MiningStore Int := do
  requireAuth participant
  let stored ← loadCampaign campaignId
  let campaign ← autoEnd stored
  require (campaign.status = .ended) (.error .invalidStateTransition)
  let participation ← look (·.mining.miningParticipation campaignId participant)
  require (participation ≠ 0) (.error .invalidAmount)
  require (campaign.totalParticipation ≠ 0) (.error .insufficientFunds)
  let product ← i128 (.error .stakeOverflow) (participation * campaign.incentivePool)
  let entitled := product.tdiv campaign.totalParticipation
  let alreadyClaimed ← look (·.mining.miningClaimed campaignId participant)
  let claimable := subOrZero entitled alreadyClaimed
  if claimable ≤ 0 then return 0
  else do
    let payout := min claimable (subOrZero campaign.incentivePool campaign.distributed)
    if payout ≤ 0 then return 0
    else do
      pay campaign.token participant payout
      let distributed ← i128 (.error .stakeOverflow) (campaign.distributed + payout)
      saveCampaign { campaign with distributed }
      let claimed ← i128 .arithmetic (alreadyClaimed + payout)
      setClaimed campaignId participant claimed
      return payout

def endMiningCampaign (adminSigners : List Address) (campaignId : Nat) : Contract Mining Unit := do
  requireAdminApproval adminSigners
  let campaign ← loadCampaign campaignId
  require (campaign.status = .active) (.error .invalidStateTransition)
  let ctx ← ask
  saveCampaign { campaign with status := .ended, endTimestamp := ctx.now }

def cancelMiningCampaign (adminSigners : List Address) (campaignId : Nat) : Contract MiningStore Unit := do
  requireAdminApproval adminSigners
  let campaign ← loadCampaign campaignId
  require (campaign.status = .active) (.error .invalidStateTransition)
  saveCampaign { campaign with status := .cancelled }
  let refund := subOrZero campaign.incentivePool campaign.distributed
  if 0 < refund then pay campaign.token campaign.creator refund else return ()

inductive MiningOp where
  | createMiningCampaign (adminSigners : List Address) (token : Address) (incentivePool : Int) (durationSecs : Nat)
      (campaignType : MiningCampaignType)
  | recordParticipation (campaignId : Nat) (participant : Address) (stakeWeight : Int)
  | claimMiningReward (campaignId : Nat) (participant : Address)
  | endMiningCampaign (adminSigners : List Address) (campaignId : Nat)
  | cancelMiningCampaign (adminSigners : List Address) (campaignId : Nat)
deriving DecidableEq, Repr

def MiningOp.run : MiningOp → Contract MiningStore Unit
  | .createMiningCampaign signers token pool duration campaignType =>
    discard (QuorumCredit.createMiningCampaign signers token pool duration campaignType)
  | .recordParticipation campaignId participant weight =>
    monadLift (QuorumCredit.recordParticipation campaignId participant weight)
  | .claimMiningReward campaignId participant => discard (QuorumCredit.claimMiningReward campaignId participant)
  | .endMiningCampaign signers campaignId => monadLift (QuorumCredit.endMiningCampaign signers campaignId)
  | .cancelMiningCampaign signers campaignId => QuorumCredit.cancelMiningCampaign signers campaignId

/-- Liquidity mining as a part of the contract: the other entry points may change
the world and the money. -/
def liquidityMining : Component World (List Address) Context Failure MiningStore MiningOp where
  run := MiningOp.run
  context w signers := { w with signers }
  drift w s w' s' := w.now ≤ w'.now ∧ w'.contract = w.contract ∧ s'.mining = s.mining

abbrev MiningHistory := List (Situated World MiningStore × Event World (List Address) MiningStore MiningOp)

/-- No campaign created yet. -/
def miningStart (world : World) (bank : Ledger) : Situated World MiningStore := ⟨world, ⟨bank, .empty⟩⟩

end QuorumCredit
