import QuorumCredit.BridgeAttestation
/-!
# Cross-chain auctions

`cross_chain_auction.rs`: auctions of slashed collateral. The bids are escrowed, one
record per bidder; a bid from another chain needs a bridge attestation.
-/

open Host Function

namespace QuorumCredit

/-- The chain id of a local bid. -/
def localChainId : Nat := 0

structure CrossChainAuction where
  auctionId : Nat
  defaultedBorrower : Address
  collateralAmount : Int
  token : Address
  auctionStart : Nat
  auctionEnd : Nat
  reservePrice : Int
  highestBid : Int
  highestBidder : Option Address
  bidCount : Nat
  settled : Bool
  participatingChains : List Nat
deriving DecidableEq, Repr

structure Bid where
  auctionId : Nat
  bidder : Address
  amount : Int
  timestamp : Nat
  chainId : Nat
  refunded : Bool
deriving DecidableEq, Repr

structure AuctionSettlement where
  auctionId : Nat
  winningBid : Int
  winningBidder : Address
  totalProceeds : Int
  settledAt : Nat
  voucherPayout : Int
  treasuryPayout : Int
deriving DecidableEq, Repr

/-- The storage entries of the module. -/
structure Auctions where
  crossChainAuction : Nat → Option CrossChainAuction
  auctionBid : Nat → Address → Option Bid
  auctionSettlement : Nat → Option AuctionSettlement

def Auctions.empty : Auctions :=
  { crossChainAuction := fun _ => none, auctionBid := fun _ _ => none, auctionSettlement := fun _ => none }

/-- These entries, beside the money and the attestations. -/
structure AuctionStore where
  bank : Ledger
  bridges : Bridges
  auctions : Auctions

instance : Part AuctionStore (Bank Address Address) where
  get := AuctionStore.bank
  set b s := { s with bank := b }
instance : Part AuctionStore Bridges where
  get := AuctionStore.bridges
  set b s := { s with bridges := b }
instance : Part AuctionStore Auctions where
  get := AuctionStore.auctions
  set g s := { s with auctions := g }

/-! ## Records -/

def loadAuction (auctionId : Nat) : Contract Auctions CrossChainAuction := do
  orFail (← look (·.crossChainAuction auctionId)) (.error .noActiveLoan)

def saveAuction (auctionId : Nat) (auction : CrossChainAuction) : Contract Auctions Unit :=
  alter fun g => { g with crossChainAuction := update g.crossChainAuction auctionId (some auction) }

def setBid (auctionId : Nat) (bidder : Address) (bid : Bid) : Contract Auctions Unit :=
  alter fun g =>
    { g with auctionBid := update g.auctionBid auctionId (update (g.auctionBid auctionId) bidder (some bid)) }

/-- The escrow that a bid record stands for. -/
def openBid : Option Bid → Int
  | some bid => if bid.refunded = true then 0 else bid.amount
  | none => 0

/-! ## Entry points -/

def createCrossChainAuction (adminSigners : List Address) (defaultedBorrower : Address) (collateralAmount : Int)
    (token : Address) (auctionDurationSeconds : Nat) (reservePrice : Int) (participatingChains : List Nat) :
    Contract Auctions Nat := do
  requireAdminApproval adminSigners
  require (0 < collateralAmount) (.error .invalidAmount)
  require (auctionDurationSeconds ≠ 0) (.error .invalidAmount)
  require (0 ≤ reservePrice) (.error .invalidAmount)
  let ctx ← ask
  let auctionEnd ← u64 .arithmetic (ctx.now + auctionDurationSeconds)
  saveAuction ctx.now
    { auctionId := ctx.now, defaultedBorrower, collateralAmount, token, auctionStart := ctx.now, auctionEnd
      reservePrice, highestBid := 0, highestBidder := none, bidCount := 0, settled := false, participatingChains }
  return ctx.now

/-- A bid from another chain needs an attestation of just this bid. -/
def requireBidAttestation (host : BridgeHost) (auctionId : Nat) (bidder : Address) (bidAmount : Int) (chainId : Nat)
    (attestation : Option BridgeAttestation) : Contract Bridges Unit :=
  if chainId ≠ localChainId then do
    validateActiveBridge chainId
    let attestation ← orFail attestation (.error .bridgeAttestationRequired)
    validateBridgeAttestation host
      { originChain := chainId, loanId := auctionId, borrower := bidder, amount := bidAmount, status := .active
        reputationScore := 0 }
      attestation
  else return ()

/-- Pulls what a raised bid adds to the escrow. -/
def escrowBid (token bidder : Address) (amount : Int) : Contract Ledger Unit :=
  if 0 < amount then collect token bidder amount else return ()

def placeBid (host : BridgeHost) (auctionId : Nat) (bidder : Address) (bidAmount : Int) (chainId : Nat)
    (attestation : Option BridgeAttestation) : Contract AuctionStore Unit := do
  requireAuth bidder
  require (0 < bidAmount) (.error .invalidAmount)
  requireBidAttestation host auctionId bidder bidAmount chainId attestation
  let auction ← loadAuction auctionId
  let ctx ← ask
  require (auction.auctionStart ≤ ctx.now ∧ ctx.now < auction.auctionEnd) (.error .invalidStateTransition)
  require (auction.reservePrice ≤ bidAmount) (.error .insufficientFunds)
  require (auction.highestBid < bidAmount) (.error .insufficientFunds)
  let stored ← look (·.auctions.auctionBid auctionId bidder)
  let toEscrow ← i128 .arithmetic (bidAmount - openBid stored)
  escrowBid auction.token bidder toEscrow
  let bidCount ← u32 .arithmetic (auction.bidCount + 1)
  setBid auctionId bidder
    { auctionId, bidder, amount := bidAmount, timestamp := ctx.now, chainId, refunded := false }
  saveAuction auctionId { auction with highestBid := bidAmount, highestBidder := some bidder, bidCount }

def claimRefund (auctionId : Nat) (bidder : Address) : Contract AuctionStore Unit := do
  requireAuth bidder
  let auction ← loadAuction auctionId
  let bid ← orFail (← look (·.auctions.auctionBid auctionId bidder)) (.error .noRefundAvailable)
  require (bid.refunded = false) (.error .noRefundAvailable)
  let settlement ← look (·.auctions.auctionSettlement auctionId)
  -- the winner's escrow is the proceeds
  require (¬ (settlement.isSome = true ∧ auction.highestBidder = some bidder)) (.error .noRefundAvailable)
  require (¬ (auction.settled = false ∧ auction.highestBidder = some bidder)) (.error .noRefundAvailable)
  setBid auctionId bidder { bid with refunded := true }
  pay auction.token bidder bid.amount

def settleAuction (adminSigners : List Address) (auctionId : Nat) : Contract Auctions Unit := do
  requireAdminApproval adminSigners
  let auction ← loadAuction auctionId
  let ctx ← ask
  require (auction.auctionEnd ≤ ctx.now) (.error .invalidStateTransition)
  require (auction.settled = false) (.error .invalidStateTransition)
  -- a failed auction is marked as settled, but the error undoes the mark
  let winningBidder ← orFail auction.highestBidder (.error .insufficientFunds)
  require (auction.reservePrice ≤ auction.highestBid) (.error .insufficientFunds)
  let scaled ← i128 .arithmetic (auction.highestBid * 80)
  let voucherPayout := scaled.tdiv 100
  let treasuryPayout ← i128 .arithmetic (auction.highestBid - voucherPayout)
  saveAuction auctionId { auction with settled := true }
  alter fun g : Auctions =>
    { g with
      auctionSettlement := update g.auctionSettlement auctionId
        (some { auctionId, winningBid := auction.highestBid, winningBidder, totalProceeds := auction.highestBid
                settledAt := ctx.now, voucherPayout, treasuryPayout }) }

def extendAuction (adminSigners : List Address) (auctionId newAuctionEnd : Nat) : Contract Auctions Unit := do
  requireAdminApproval adminSigners
  let auction ← loadAuction auctionId
  let ctx ← ask
  require (¬ (0 < auction.bidCount ∧ auction.auctionEnd ≤ ctx.now)) (.error .invalidStateTransition)
  require (auction.auctionEnd < newAuctionEnd) (.error .invalidStateTransition)
  saveAuction auctionId { auction with auctionEnd := newAuctionEnd }

/-- The leading bid is marked as refunded; nothing is paid. -/
def unwindHighestBid (auctionId : Nat) (highestBidder : Option Address) : Contract Auctions Unit :=
  match highestBidder with
  | some bidder => do
    match ← look (·.auctionBid auctionId bidder) with
    | some bid => setBid auctionId bidder { bid with refunded := true }
    | none => return ()
  | none => return ()

def cancelAuction (adminSigners : List Address) (auctionId : Nat) : Contract Auctions Unit := do
  requireAdminApproval adminSigners
  let auction ← loadAuction auctionId
  require (auction.settled = false) (.error .invalidStateTransition)
  unwindHighestBid auctionId auction.highestBidder
  saveAuction auctionId { auction with settled := true }

inductive AuctionOp where
  | createCrossChainAuction (adminSigners : List Address) (defaultedBorrower : Address) (collateralAmount : Int)
      (token : Address) (auctionDurationSeconds : Nat) (reservePrice : Int) (participatingChains : List Nat)
  | placeBid (auctionId : Nat) (bidder : Address) (bidAmount : Int) (chainId : Nat)
      (attestation : Option BridgeAttestation)
  | claimRefund (auctionId : Nat) (bidder : Address)
  | settleAuction (adminSigners : List Address) (auctionId : Nat)
  | extendAuction (adminSigners : List Address) (auctionId newAuctionEnd : Nat)
  | cancelAuction (adminSigners : List Address) (auctionId : Nat)
deriving DecidableEq, Repr

def AuctionOp.run (host : BridgeHost) : AuctionOp → Contract AuctionStore Unit
  | .createCrossChainAuction signers borrower collateral token duration reserve chains =>
    discard (monadLift (QuorumCredit.createCrossChainAuction signers borrower collateral token duration reserve chains))
  | .placeBid auctionId bidder amount chainId attestation =>
    QuorumCredit.placeBid host auctionId bidder amount chainId attestation
  | .claimRefund auctionId bidder => QuorumCredit.claimRefund auctionId bidder
  | .settleAuction signers auctionId => monadLift (QuorumCredit.settleAuction signers auctionId)
  | .extendAuction signers auctionId newEnd => monadLift (QuorumCredit.extendAuction signers auctionId newEnd)
  | .cancelAuction signers auctionId => monadLift (QuorumCredit.cancelAuction signers auctionId)

/-- The auctions as a part of the contract: the other entry points may change the
world, the money and the attestations. -/
def crossChainAuctions (host : BridgeHost) : Component World (List Address) Context Failure AuctionStore AuctionOp where
  run := AuctionOp.run host
  context w signers := { w with signers }
  drift w s w' s' := w.now ≤ w'.now ∧ w'.contract = w.contract ∧ s'.auctions = s.auctions

abbrev AuctionHistory := List (Situated World AuctionStore × Event World (List Address) AuctionStore AuctionOp)

/-- No auction created yet. -/
def auctionsStart (world : World) (bank : Ledger) (bridges : Bridges) : Situated World AuctionStore :=
  ⟨world, ⟨bank, bridges, .empty⟩⟩

end QuorumCredit
