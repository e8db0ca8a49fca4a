import QuorumCredit.CommunityTreasury
/-!
# Prediction markets

`prediction_market.rs`: participants stake on the outcome of a market, and the
winners share all of the stakes. Every call names the token it moves; the records
do not.
-/

open Host Function

namespace QuorumCredit

def predictionMarketFeeBps : Int := 200

inductive PredictionSide where
  | yes | no
deriving DecidableEq, Repr

inductive MarketStatus where
  | «open» | pendingResolution | resolved | cancelled
deriving DecidableEq, Repr

structure PredictionMarket where
  id : Nat
  description : String
  rateThresholdBps : Nat
  closesAt : Nat
  resolvesAt : Nat
  totalYesStake : Int
  totalNoStake : Int
  outcome : Option Bool
  status : MarketStatus
deriving DecidableEq, Repr

structure MarketPosition where
  participant : Address
  side : PredictionSide
  stake : Int
  claimed : Bool
deriving DecidableEq, Repr

structure PredictionAccuracy where
  total : Nat
  correct : Nat
  totalWon : Int
  totalLost : Int
deriving DecidableEq, Repr

/-- The storage entries of the module. -/
structure Markets where
  predictionMarket : Nat → Option PredictionMarket
  predictionMarketCounter : Nat
  marketPosition : Nat → Address → Option MarketPosition
  predictionAccuracy : Address → Option PredictionAccuracy

def Markets.empty : Markets :=
  { predictionMarket := fun _ => none, predictionMarketCounter := 0, marketPosition := fun _ _ => none
    predictionAccuracy := fun _ => none }

/-- These entries, beside what the entry points share with the rest of the contract. -/
structure MarketStore where
  access : Access
  bank : Ledger
  treasury : CommunityTreasury
  markets : Markets

instance : Part MarketStore Access where
  get := MarketStore.access
  set a s := { s with access := a }
instance : Part MarketStore (Bank Address Address) where
  get := MarketStore.bank
  set b s := { s with bank := b }
instance : Part MarketStore CommunityTreasury where
  get := MarketStore.treasury
  set c s := { s with treasury := c }
instance : Part MarketStore Markets where
  get := MarketStore.markets
  set g s := { s with markets := g }

/-! ## Records -/

def loadMarket (marketId : Nat) : Contract Markets PredictionMarket := do
  orFail (← look (·.predictionMarket marketId)) (.error .proposalNotFound)

def saveMarket (marketId : Nat) (market : PredictionMarket) : Contract Markets Unit :=
  alter fun g => { g with predictionMarket := update g.predictionMarket marketId (some market) }

def setPosition (marketId : Nat) (participant : Address) (position : MarketPosition) : Contract Markets Unit :=
  alter fun g =>
    { g with
      marketPosition := update g.marketPosition marketId
        (update (g.marketPosition marketId) participant (some position)) }

def nextMarketId : Contract Markets Nat := do
  let counter ← look (·.predictionMarketCounter)
  let marketId ← u64 .arithmetic (counter + 1)
  alter fun g : Markets => { g with predictionMarketCounter := marketId }
  return marketId

def updateAccuracy (participant : Address) (correct : Bool) (won lost : Int) : Contract Markets Unit := do
  let stored ← look (·.predictionAccuracy participant)
  let acc := stored.getD { total := 0, correct := 0, totalWon := 0, totalLost := 0 }
  let total ← u32 .arithmetic (acc.total + 1)
  let correct ← u32 .arithmetic (if correct then acc.correct + 1 else acc.correct)
  let totalWon ← i128 .arithmetic (acc.totalWon + won)
  let totalLost ← i128 .arithmetic (acc.totalLost + lost)
  alter fun g : Markets =>
    { g with
      predictionAccuracy := update g.predictionAccuracy participant (some { total, correct, totalWon, totalLost }) }

/-! ## Entry points -/

def createMarket (adminSigners : List Address) (description : String) (rateThresholdBps closesAt resolvesAt : Nat) :
    Contract MarketStore Nat := do
  requireNotPaused
  requireAdminApproval adminSigners
  let ctx ← ask
  require (ctx.now < closesAt ∧ closesAt < resolvesAt) (.error .invalidAmount)
  let marketId ← nextMarketId
  saveMarket marketId
    { id := marketId, description, rateThresholdBps, closesAt, resolvesAt, totalYesStake := 0, totalNoStake := 0
      outcome := none, status := .open }
  return marketId

/-- The market with the stake added to its side. -/
def addStake (market : PredictionMarket) (side : PredictionSide) (stake : Int) : Contract Markets PredictionMarket :=
  match side with
  | .yes => do
    let totalYesStake ← i128 .arithmetic (market.totalYesStake + stake)
    return { market with totalYesStake }
  | .no => do
    let totalNoStake ← i128 .arithmetic (market.totalNoStake + stake)
    return { market with totalNoStake }

def placePrediction (participant : Address) (marketId : Nat) (side : PredictionSide) (stake : Int) (token : Address) :
    Contract MarketStore Unit := do
  requireNotPaused
  requireAuth participant
  require (0 < stake) (.error .invalidAmount)
  let market ← loadMarket marketId
  require (market.status = .open) (.error .votingPeriodEnded)
  let ctx ← ask
  -- past the end the market is set to `PendingResolution`, but the error undoes it
  require (ctx.now < market.closesAt) (.error .votingPeriodEnded)
  let existing ← look (·.markets.marketPosition marketId participant)
  require (existing = none) (.error .alreadyVoted)
  collect token participant stake
  setPosition marketId participant { participant, side, stake, claimed := false }
  let market ← addStake market side stake
  saveMarket marketId market

def resolveMarket (adminSigners : List Address) (marketId : Nat) (outcome : Bool) : Contract MarketStore Unit := do
  requireNotPaused
  requireAdminApproval adminSigners
  let market ← loadMarket marketId
  require (market.status ≠ .resolved ∧ market.status ≠ .cancelled) (.error .invalidStateTransition)
  saveMarket marketId { market with outcome := some outcome, status := .resolved }

def cancelMarket (adminSigners : List Address) (marketId : Nat) : Contract MarketStore Unit := do
  requireNotPaused
  requireAdminApproval adminSigners
  let market ← loadMarket marketId
  require (market.status ≠ .resolved ∧ market.status ≠ .cancelled) (.error .invalidStateTransition)
  saveMarket marketId { market with status := .cancelled }

/-- The position is on the side of the outcome. -/
def MarketPosition.won (position : MarketPosition) (outcome : Option Bool) : Bool :=
  match outcome with
  | some true => position.side = .yes
  | some false => position.side = .no
  | none => false

/-- The stake of the side of the outcome. -/
def PredictionMarket.winningStake (market : PredictionMarket) : Int :=
  match market.outcome with
  | some true => market.totalYesStake
  | _ => market.totalNoStake

/-- What a winner is paid; the fee goes to the treasury. -/
def winnerPayout (market : PredictionMarket) (stake : Int) : Contract CommunityTreasury Int := do
  let totalPot ← i128 .arithmetic (market.totalYesStake + market.totalNoStake)
  if market.winningStake = 0 then return 0
  else do
    let product ← i128 .arithmetic (stake * totalPot)
    let gross ← divI128 .arithmetic product market.winningStake
    let scaled ← i128 .arithmetic (gross * predictionMarketFeeBps)
    let fee := scaled.tdiv 10000
    let net ← i128 .arithmetic (gross - fee)
    depositToTreasury fee
    return net

def sendPayout (token participant : Address) (payout : Int) : Contract Ledger Unit :=
  if 0 < payout then pay token participant payout else return ()

/-- Pays a claim that is not lost. -/
def payClaim (participant : Address) (marketId : Nat) (token : Address) (position : MarketPosition) (payout : Int) :
    Contract MarketStore Int := do
  setPosition marketId participant { position with claimed := true }
  sendPayout token participant payout
  updateAccuracy participant true payout 0
  return payout

def claimPayout (participant : Address) (marketId : Nat) (token : Address) : Contract MarketStore Int := do
  requireAuth participant
  let market ← loadMarket marketId
  require (market.status = .resolved ∨ market.status = .cancelled) (.error .invalidStateTransition)
  let position ← orFail (← look (·.markets.marketPosition marketId participant)) (.error .unauthorizedCaller)
  require (position.claimed = false) (.error .alreadyRepaid)
  if market.status = .cancelled then payClaim participant marketId token position position.stake
  else if position.won market.outcome = true then do
    let payout ← winnerPayout market position.stake
    payClaim participant marketId token position payout
  else do
    updateAccuracy participant false 0 position.stake
    setPosition marketId participant { position with claimed := true }
    return 0

inductive MarketOp where
  | createMarket (adminSigners : List Address) (description : String) (rateThresholdBps closesAt resolvesAt : Nat)
  | placePrediction (participant : Address) (marketId : Nat) (side : PredictionSide) (stake : Int) (token : Address)
  | resolveMarket (adminSigners : List Address) (marketId : Nat) (outcome : Bool)
  | cancelMarket (adminSigners : List Address) (marketId : Nat)
  | claimPayout (participant : Address) (marketId : Nat) (token : Address)
deriving DecidableEq, Repr

def MarketOp.run : MarketOp → Contract MarketStore Unit
  | .createMarket signers description threshold closesAt resolvesAt =>
    discard (QuorumCredit.createMarket signers description threshold closesAt resolvesAt)
  | .placePrediction participant marketId side stake token =>
    QuorumCredit.placePrediction participant marketId side stake token
  | .resolveMarket signers marketId outcome => QuorumCredit.resolveMarket signers marketId outcome
  | .cancelMarket signers marketId => QuorumCredit.cancelMarket signers marketId
  | .claimPayout participant marketId token => discard (QuorumCredit.claimPayout participant marketId token)

/-- The markets as a part of the contract: the other entry points may change the
world, the guards' state, the money and the treasury. -/
def predictionMarkets : Component World (List Address) Context Failure MarketStore MarketOp where
  run := MarketOp.run
  context w signers := { w with signers }
  drift w s w' s' := w.now ≤ w'.now ∧ w'.contract = w.contract ∧ s'.markets = s.markets

abbrev MarketHistory := List (Situated World MarketStore × Event World (List Address) MarketStore MarketOp)

/-- No market created yet. -/
def marketsStart (world : World) (access : Access) (bank : Ledger) (treasury : CommunityTreasury) :
    Situated World MarketStore :=
  ⟨world, ⟨access, bank, treasury, .empty⟩⟩

end QuorumCredit
