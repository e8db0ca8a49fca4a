import QuorumCredit.CommunityTreasury
import Mathlib.Data.Nat.Sqrt
/-!
# Interest rate options

`interest_rate_options.rs`: calls and puts on the protocol's yield. The open
interest of a type is kept beside the options: it grows when one is bought and
shrinks, not below zero, when one is settled or cancelled.
-/

open Host Function

namespace QuorumCredit

def defaultImpliedVolatilityBpsPerDay : Nat := 5
def optionProtocolFeeBps : Int := 100
def premiumDivisor : Int := 10000 * 10000 * 100

inductive OptionType where
  | call | put
deriving DecidableEq, Repr

inductive OptionStatus where
  | active | settled | expired | cancelled
deriving DecidableEq, Repr

structure InterestRateOption where
  id : Nat
  holder : Address
  optionType : OptionType
  strikeBps : Nat
  notional : Int
  premium : Int
  issuedAt : Nat
  expiresAt : Nat
  payout : Int
  status : OptionStatus
deriving DecidableEq, Repr

structure OptionOpenInterest where
  count : Nat
  totalNotional : Int
  totalPremiums : Int
deriving DecidableEq, Repr

/-- The storage entries of the options. -/
structure Options where
  interestRateOption : Nat → Option InterestRateOption
  optionCounter : Nat
  optionOpenInterest : OptionType → Option OptionOpenInterest
  impliedVolatility : Option Nat

def Options.empty : Options :=
  { interestRateOption := fun _ => none, optionCounter := 0, optionOpenInterest := fun _ => none
    impliedVolatility := none }

/-- These entries, beside what the entry points share with the rest of the contract. -/
structure OptionStore where
  access : Access
  bank : Ledger
  treasury : CommunityTreasury
  options : Options

instance : Part OptionStore Access where
  get := OptionStore.access
  set a s := { s with access := a }
instance : Part OptionStore (Bank Address Address) where
  get := OptionStore.bank
  set b s := { s with bank := b }
instance : Part OptionStore CommunityTreasury where
  get := OptionStore.treasury
  set c s := { s with treasury := c }
instance : Part OptionStore Options where
  get := OptionStore.options
  set g s := { s with options := g }

/-! ## Pricing -/

/-- The loop of the source: `x`, while the next value `(x + n / x) / 2` is below it. -/
def isqrtLoop (n : Nat) : (fuel x : Nat) → Nat
  | 0, x => x
  | fuel + 1, x => if (x + n / x) / 2 < x then isqrtLoop n fuel ((x + n / x) / 2) else x

/-- Newton's method from `n` down; every round makes `x` smaller. -/
def isqrt (n : Nat) : Nat := if n = 0 then 0 else isqrtLoop n n n

def calculatePremium (notional : Int) (strikeBps daysToExpiry impliedVolBps : Nat) : Contract Options Int := do
  if daysToExpiry = 0 ∨ notional ≤ 0 then return 0
  else do
    let product ← i128 .arithmetic (notional * strikeBps)
    let product ← i128 .arithmetic (product * impliedVolBps)
    let product ← i128 .arithmetic (product * isqrt daysToExpiry)
    let premium := product.tdiv premiumDivisor
    let scaled ← i128 .arithmetic (premium * optionProtocolFeeBps)
    i128 .arithmetic (premium + scaled.tdiv 10000)

/-! ## Open interest -/

def Options.getOpenInterest (g : Options) (optionType : OptionType) : OptionOpenInterest :=
  (g.optionOpenInterest optionType).getD ⟨0, 0, 0⟩

def saveOpenInterest (optionType : OptionType) (oi : OptionOpenInterest) : Contract Options Unit :=
  alter fun g => { g with optionOpenInterest := update g.optionOpenInterest optionType (some oi) }

def updateOpenInterest (optionType : OptionType) (notional premium : Int) (add : Bool) : Contract Options Unit := do
  let oi ← look (·.getOpenInterest optionType)
  if add then do
    let count ← u64 .arithmetic (oi.count + 1)
    let totalNotional ← i128 .arithmetic (oi.totalNotional + notional)
    let totalPremiums ← i128 .arithmetic (oi.totalPremiums + premium)
    saveOpenInterest optionType { count, totalNotional, totalPremiums }
  else do
    let totalNotional ← i128 .arithmetic (oi.totalNotional - notional)
    let totalPremiums ← i128 .arithmetic (oi.totalPremiums - premium)
    saveOpenInterest optionType
      { count := oi.count - 1, totalNotional := max totalNotional 0, totalPremiums := max totalPremiums 0 }

/-! ## Entry points -/

def saveOption (optionId : Nat) (option : InterestRateOption) : Contract Options Unit :=
  alter fun g => { g with interestRateOption := update g.interestRateOption optionId (some option) }

def setImpliedVolatility (adminSigners : List Address) (volBpsPerDay : Nat) : Contract Options Unit := do
  requireAdminApproval adminSigners
  alter fun g : Options => { g with impliedVolatility := some volBpsPerDay }

def collectPremium (token holder : Address) (premium : Int) : Contract Ledger Unit := do
  if 0 < premium then collect token holder premium else return ()

def buyOption (holder : Address) (optionType : OptionType) (strikeBps : Nat) (notional : Int) (durationSecs : Nat)
    (token : Address) : Contract OptionStore Nat := do
  requireNotPaused
  requireAuth holder
  require (0 < notional ∧ strikeBps ≠ 0 ∧ durationSecs ≠ 0) (.error .invalidAmount)
  let ctx ← ask
  let expiresAt ← u64 .arithmetic (ctx.now + durationSecs)
  let daysToExpiry := max (durationSecs / secsPerDay) 1
  let vol ← look (·.options.impliedVolatility)
  let premium ← calculatePremium notional strikeBps daysToExpiry (vol.getD defaultImpliedVolatilityBpsPerDay)
  collectPremium token holder premium
  let counter ← look (·.options.optionCounter)
  let optionId ← u64 .arithmetic (counter + 1)
  alter fun s : OptionStore => { s with options.optionCounter := optionId }
  saveOption optionId
    { id := optionId, holder, optionType, strikeBps, notional, premium, issuedAt := ctx.now, expiresAt, payout := 0
      status := .active }
  updateOpenInterest optionType notional premium true
  return optionId

/-- The option, if it is the holder's and active. -/
def loadActiveOption (holder : Address) (optionId : Nat) : Contract Options InterestRateOption := do
  let option ← orFail (← look (·.interestRateOption optionId)) (.error .invalidAmount)
  require (option.holder = holder) (.error .unauthorizedCaller)
  require (option.status = .active) (.error .invalidStateTransition)
  return option

/-- What the option is worth at the rate `currentBps`, before the fee. -/
def optionPayout (option : InterestRateOption) (currentBps : Nat) : Contract Options Int := do
  let diff : Nat :=
    match option.optionType with
    | .call => option.strikeBps - currentBps
    | .put => currentBps - option.strikeBps
  let product ← i128 .arithmetic (diff * option.notional)
  return product.tdiv 10000

def payPayout (token holder : Address) (fee netPayout : Int) : Contract OptionStore Unit := do
  if 0 < netPayout then do
    depositToTreasury fee
    pay token holder netPayout
  else return ()

def settleOption (holder : Address) (optionId : Nat) (token : Address) : Contract OptionStore Int := do
  requireAuth holder
  let option ← loadActiveOption holder optionId
  let ctx ← ask
  require (option.expiresAt ≤ ctx.now) (.error .loanPastDeadline)
  -- `cfg.yield_bps as u32`
  let payout ← optionPayout option (ctx.config.yieldBps % 2 ^ 32).toNat
  let scaled ← i128 .arithmetic (payout * optionProtocolFeeBps)
  let fee := scaled.tdiv 10000
  let netPayout ← i128 .arithmetic (payout - fee)
  payPayout token holder fee netPayout
  saveOption optionId
    { option with payout := netPayout, status := if 0 < netPayout then .settled else .expired }
  updateOpenInterest option.optionType option.notional option.premium false
  return netPayout

def payRefund (token holder : Address) (refund : Int) : Contract Ledger Unit := do
  if 0 < refund then pay token holder refund else return ()

def cancelOption (holder : Address) (optionId : Nat) (token : Address) : Contract OptionStore Int := do
  requireAuth holder
  let option ← loadActiveOption holder optionId
  let ctx ← ask
  let totalDuration := max (option.expiresAt - option.issuedAt) 1
  let remaining := option.expiresAt - ctx.now
  let product ← i128 .arithmetic (option.premium * remaining)
  let refund := product.tdiv totalDuration
  saveOption optionId { option with status := .cancelled, payout := 0 }
  payRefund token holder refund
  updateOpenInterest option.optionType option.notional option.premium false
  return refund

inductive OptionOp where
  | setImpliedVolatility (adminSigners : List Address) (volBpsPerDay : Nat)
  | buyOption (holder : Address) (optionType : OptionType) (strikeBps : Nat) (notional : Int) (durationSecs : Nat)
      (token : Address)
  | settleOption (holder : Address) (optionId : Nat) (token : Address)
  | cancelOption (holder : Address) (optionId : Nat) (token : Address)
deriving DecidableEq, Repr

def OptionOp.run : OptionOp → Contract OptionStore Unit
  | .setImpliedVolatility signers vol => monadLift (QuorumCredit.setImpliedVolatility signers vol)
  | .buyOption holder optionType strike notional duration token =>
    discard (QuorumCredit.buyOption holder optionType strike notional duration token)
  | .settleOption holder optionId token => discard (QuorumCredit.settleOption holder optionId token)
  | .cancelOption holder optionId token => discard (QuorumCredit.cancelOption holder optionId token)

/-- The options as a part of the contract: the other entry points may change the
world, the guards' state, the money and the treasury. -/
def rateOptions : Component World (List Address) Context Failure OptionStore OptionOp where
  run := OptionOp.run
  context w signers := { w with signers }
  drift w s w' s' := w.now ≤ w'.now ∧ w'.contract = w.contract ∧ s'.options = s.options

/-- No option bought yet. -/
def optionsStart (world : World) (access : Access) (bank : Ledger) (treasury : CommunityTreasury) :
    Situated World OptionStore :=
  ⟨world, ⟨access, bank, treasury, .empty⟩⟩

end QuorumCredit
