import QuorumCredit.Guards
import QuorumCredit.Host.Script
/-!
# Reputation badges

`reputation_nft.rs`: badges earned by milestones, stored by owner and type, that
can be staked or traded, and for each type three counters kept beside them.
-/

open Host Function

namespace QuorumCredit

def topVoucherMinBacked : Nat := 5
def trustPillarMinBacked : Nat := 20
def centurionScoreThreshold : Nat := 100

inductive BadgeType where
  | firstLoan | tenLoans | centurion | topVoucher | trustPillar
deriving DecidableEq, Repr

structure Badge where
  badgeType : BadgeType
  owner : Address
  mintedAt : Nat
  staked : Bool
  listedForSale : Bool
  listingPrice : Int
deriving DecidableEq, Repr

structure BadgeStats where
  totalMinted : Nat
  totalStaked : Nat
  totalListed : Nat
deriving DecidableEq, Repr

def BadgeStats.none : BadgeStats := { totalMinted := 0, totalStaked := 0, totalListed := 0 }

/-- The storage entries of the module. -/
structure Badges where
  reputationBadge : Address → BadgeType → Option Badge
  badgeStats : BadgeType → Option BadgeStats

def Badges.empty : Badges := { reputationBadge := fun _ _ => .none, badgeStats := fun _ => .none }

/-- What other parts of the contract count, and badges are earned by. -/
structure BadgeMilestones where
  repaymentCount : Address → Nat
  reputationScore : Address → Nat
  voucherBackedCount : Address → Nat

/-- These entries, beside the pause state and the tokens. -/
structure BadgeStore where
  access : Access
  bank : Ledger
  milestones : BadgeMilestones
  badges : Badges

instance : Part BadgeStore Access where
  get := BadgeStore.access
  set a s := { s with access := a }
instance : Part BadgeStore (Bank Address Address) where
  get := BadgeStore.bank
  set b s := { s with bank := b }
instance : Part BadgeStore Badges where
  get := BadgeStore.badges
  set b s := { s with badges := b }

/-! ## Records -/

def loadBadge (owner : Address) (badgeType : BadgeType) : Contract Badges Badge := do
  orFail (← look (·.reputationBadge owner badgeType)) (.error .invalidAmount)

def setBadge (owner : Address) (badgeType : BadgeType) (badge : Option Badge) : Contract Badges Unit :=
  alter fun b =>
    { b with reputationBadge := update b.reputationBadge owner (update (b.reputationBadge owner) badgeType badge) }

def setBadgeStats (badgeType : BadgeType) (stats : BadgeStats) : Contract Badges Unit :=
  alter fun b => { b with badgeStats := update b.badgeStats badgeType (some stats) }

/-- The counters of the type, if there are any, after `f`. -/
def adjustBadgeStats (badgeType : BadgeType) (f : BadgeStats → BadgeStats) : Contract Badges Unit := do
  let stored ← look (·.badgeStats badgeType)
  match stored with
  | some stats => setBadgeStats badgeType (f stats)
  | .none => return

/-! ## Minting -/

/-- Only a badge held now is found: one that was sold is minted again. -/
def mintBadge (owner : Address) (badgeType : BadgeType) : Contract Badges Unit := do
  let held ← look (·.reputationBadge owner badgeType)
  match held with
  | some _ => return
  | .none => do
    let ctx ← ask
    setBadge owner badgeType (some { badgeType, owner, mintedAt := ctx.now, staked := false, listedForSale := false
                                     listingPrice := 0 })
    let stored ← look (·.badgeStats badgeType)
    let stats := stored.getD .none
    let totalMinted ← u64 .arithmetic (stats.totalMinted + 1)
    setBadgeStats badgeType { stats with totalMinted }

def mintIfEarned (earned : Bool) (owner : Address) (badgeType : BadgeType) : Contract Badges Unit :=
  if earned = true then mintBadge owner badgeType else return

def evaluateAndMintBadges (address : Address) : Contract BadgeStore Unit := do
  let repaymentCount ← look (·.milestones.repaymentCount address)
  mintIfEarned (1 ≤ repaymentCount) address .firstLoan
  mintIfEarned (10 ≤ repaymentCount) address .tenLoans
  let repScore ← look (·.milestones.reputationScore address)
  mintIfEarned (centurionScoreThreshold ≤ repScore) address .centurion
  let backedCount ← look (·.milestones.voucherBackedCount address)
  mintIfEarned (topVoucherMinBacked ≤ backedCount) address .topVoucher
  mintIfEarned (trustPillarMinBacked ≤ backedCount) address .trustPillar

/-! ## Staking -/

def stakeBadge (owner : Address) (badgeType : BadgeType) : Contract BadgeStore Unit := do
  requireNotPaused
  requireAuth owner
  let badge ← loadBadge owner badgeType
  require (badge.listedForSale = false) (.error .invalidStateTransition)
  if badge.staked = true then return
  else do
    setBadge owner badgeType (some { badge with staked := true })
    let stored ← look (·.badges.badgeStats badgeType)
    let stats := stored.getD .none
    let totalStaked ← u64 .arithmetic (stats.totalStaked + 1)
    setBadgeStats badgeType { stats with totalStaked }

def unstakeBadge (owner : Address) (badgeType : BadgeType) : Contract BadgeStore Unit := do
  requireNotPaused
  requireAuth owner
  let badge ← loadBadge owner badgeType
  if badge.staked = false then return
  else do
    setBadge owner badgeType (some { badge with staked := false })
    adjustBadgeStats badgeType fun stats => { stats with totalStaked := stats.totalStaked - 1 }

/-! ## Marketplace -/

def listBadgeForSale (owner : Address) (badgeType : BadgeType) (price : Int) : Contract BadgeStore Unit := do
  requireNotPaused
  requireAuth owner
  require (0 < price) (.error .invalidAmount)
  let badge ← loadBadge owner badgeType
  require (badge.staked = false) (.error .invalidStateTransition)
  setBadge owner badgeType (some { badge with listedForSale := true, listingPrice := price })
  let stored ← look (·.badges.badgeStats badgeType)
  let stats := stored.getD .none
  let totalListed ← u64 .arithmetic (stats.totalListed + 1)
  setBadgeStats badgeType { stats with totalListed }

def delistBadge (owner : Address) (badgeType : BadgeType) : Contract BadgeStore Unit := do
  requireNotPaused
  requireAuth owner
  let badge ← loadBadge owner badgeType
  if badge.listedForSale = false then return
  else do
    setBadge owner badgeType (some { badge with listedForSale := false, listingPrice := 0 })
    adjustBadgeStats badgeType fun stats => { stats with totalListed := stats.totalListed - 1 }

def purchaseBadge (buyer seller : Address) (badgeType : BadgeType) (token : Address) (paymentAmount : Int) :
    Contract BadgeStore Unit := do
  requireNotPaused
  requireAuth buyer
  let badge ← loadBadge seller badgeType
  require (badge.listedForSale = true) (.error .invalidAmount)
  require (badge.listingPrice ≤ paymentAmount) (.error .insufficientFunds)
  monadLift (Bank.transfer .token token buyer seller paymentAmount : Contract (Bank Address Address) Unit)
  setBadge seller badgeType .none
  -- whatever badge of the type the buyer holds is replaced
  setBadge buyer badgeType (some { badgeType, owner := buyer, mintedAt := badge.mintedAt, staked := false
                                   listedForSale := false, listingPrice := 0 })
  adjustBadgeStats badgeType fun stats => { stats with totalListed := stats.totalListed - 1 }

inductive BadgeOp where
  | evaluateAndMintBadges (address : Address)
  | stakeBadge (owner : Address) (badgeType : BadgeType)
  | unstakeBadge (owner : Address) (badgeType : BadgeType)
  | listBadgeForSale (owner : Address) (badgeType : BadgeType) (price : Int)
  | delistBadge (owner : Address) (badgeType : BadgeType)
  | purchaseBadge (buyer seller : Address) (badgeType : BadgeType) (token : Address) (paymentAmount : Int)
deriving DecidableEq, Repr

def BadgeOp.run : BadgeOp → Contract BadgeStore Unit
  | .evaluateAndMintBadges address => QuorumCredit.evaluateAndMintBadges address
  | .stakeBadge owner badgeType => QuorumCredit.stakeBadge owner badgeType
  | .unstakeBadge owner badgeType => QuorumCredit.unstakeBadge owner badgeType
  | .listBadgeForSale owner badgeType price => QuorumCredit.listBadgeForSale owner badgeType price
  | .delistBadge owner badgeType => QuorumCredit.delistBadge owner badgeType
  | .purchaseBadge buyer seller badgeType token paymentAmount =>
    QuorumCredit.purchaseBadge buyer seller badgeType token paymentAmount

/-- The badges as a part of the contract: the other entry points may change the
world, the pause state, the tokens and the milestones. -/
def reputationBadges : Component World (List Address) Context Failure BadgeStore BadgeOp where
  run := BadgeOp.run
  context w signers := { w with signers }
  drift w s w' s' := w.now ≤ w'.now ∧ s'.badges = s.badges

abbrev BadgeHistory := List (Situated World BadgeStore × Event World (List Address) BadgeStore BadgeOp)

/-- No badge yet. -/
def badgeStart (world : World) (access : Access) (bank : Ledger) (milestones : BadgeMilestones) :
    Situated World BadgeStore :=
  ⟨world, { access, bank, milestones, badges := .empty }⟩

end QuorumCredit
