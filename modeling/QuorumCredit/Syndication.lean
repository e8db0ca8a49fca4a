import QuorumCredit.Frames
import QuorumCredit.Host.Batch
import QuorumCredit.Host.Component
/-!
# Loan syndication

`syndication.rs`: members put collateral and vouch stake behind one shared loan.
The record of a syndicate keeps its members in a list and totals beside it; a
second record for each member, under its address, says who has joined. No other
entry point writes these entries.
-/

open Host Function

namespace QuorumCredit

inductive SyndicationRole where
  | leadBorrower | coBorrower | guarantor
deriving DecidableEq, Repr

structure SyndicationMember where
  address : Address
  role : SyndicationRole
  shareBps : Nat
  collateral : Int
  vouchStake : Int
  approved : Bool
  joinedAt : Nat
deriving DecidableEq, Repr

inductive SyndicationStatus where
  | forming | ready | active | repaid | cancelled | defaulted
deriving DecidableEq, Repr

structure LoanSyndication where
  syndicationId : Nat
  loanId : Option Nat
  members : List SyndicationMember
  totalAmount : Int
  totalCollateral : Int
  totalVouchStake : Int
  loanPurpose : String
  tokenAddress : Address
  createdAt : Nat
  disbursedAt : Option Nat
  status : SyndicationStatus
  minApprovals : Nat
  approvalCount : Nat
deriving DecidableEq, Repr

structure SyndicationRepayment where
  syndicationId : Nat
  repayer : Address
  amount : Int
  timestamp : Nat
deriving DecidableEq, Repr

structure SyndicationConfig where
  maxMembers : Nat
  minMembers : Nat
  minApprovalPercentage : Nat
  maxLoanAmount : Int
  syndicationFeeBps : Nat
deriving DecidableEq, Repr

def defaultSyndicationConfig : SyndicationConfig := ⟨10, 2, 7500, 1000000000000, 100⟩

/-- What `set_syndication_config` asks of a configuration, and the range of its type. -/
structure SyndicationConfig.Valid (cfg : SyndicationConfig) : Prop where
  minMembers : 0 < cfg.minMembers
  maxMembers : cfg.minMembers ≤ cfg.maxMembers
  minApprovalPercentage : cfg.minApprovalPercentage ≤ 10000
  maxLoanAmount : 0 < cfg.maxLoanAmount
  fits : cfg.maxMembers ≤ u32Max

theorem defaultSyndicationConfig_valid : defaultSyndicationConfig.Valid := by
  constructor <;> decide

/-- The storage entries of the syndicates. -/
structure Syndications where
  syndicationConfig : Option SyndicationConfig
  syndicationCounter : Nat
  loanSyndication : Nat → Option LoanSyndication
  syndicationMember : Nat → Address → Option SyndicationMember
  syndicationRepaymentCounter : Nat → Nat
  syndicationRepayment : Nat → Nat → Option SyndicationRepayment

def Syndications.empty (cfg : Option SyndicationConfig) : Syndications :=
  { syndicationConfig := cfg, syndicationCounter := 0, loanSyndication := fun _ => none
    syndicationMember := fun _ _ => none, syndicationRepaymentCounter := fun _ => 0
    syndicationRepayment := fun _ _ => none }

/-- These entries and the money. -/
structure SyndicationStore where
  bank : Ledger
  syndications : Syndications

instance : Part SyndicationStore (Bank Address Address) where
  get := SyndicationStore.bank
  set b s := { s with bank := b }
instance : Part SyndicationStore Syndications where
  get := SyndicationStore.syndications
  set g s := { s with syndications := g }

/-! ## Records -/

namespace Syndications

def config (g : Syndications) : SyndicationConfig := g.syndicationConfig.getD defaultSyndicationConfig

/-- A syndicate is stored under its own id. -/
def saveSyndication (g : Syndications) (y : LoanSyndication) : Syndications :=
  { g with loanSyndication := update g.loanSyndication y.syndicationId (some y) }

/-- The record of a member, under its address. -/
def setMember (g : Syndications) (id : Nat) (a : Address) (m : Option SyndicationMember) : Syndications :=
  { g with syndicationMember := update g.syndicationMember id (update (g.syndicationMember id) a m) }

/-- The next repayment of a syndicate. -/
def addRepayment (g : Syndications) (id : Nat) (repayment : SyndicationRepayment) : Syndications :=
  let idx := g.syndicationRepaymentCounter id + 1
  { g with
    syndicationRepayment := update g.syndicationRepayment id (update (g.syndicationRepayment id) idx (some repayment))
    syndicationRepaymentCounter := update g.syndicationRepaymentCounter id idx }

def totalRepaid (g : Syndications) (id : Nat) : Int :=
  (List.range (g.syndicationRepaymentCounter id)).foldl (fun total i =>
    match g.syndicationRepayment id (i + 1) with
    | some r => satI128 (total + r.amount)
    | none => total) 0

end Syndications

/-- The share of the members that must approve, rounded up. -/
def requiredApprovals (memberCount minApprovalPercentage : Nat) : Nat :=
  (memberCount * minApprovalPercentage + 9999) / 10000 % (u32Max + 1)

/-- What a member has put in. -/
def SyndicationMember.stake (m : SyndicationMember) : Int := satI128 (m.collateral + m.vouchStake)

namespace LoanSyndication

def committedStake (y : LoanSyndication) : Int :=
  y.members.foldl (fun acc m => satI128 (satI128 (acc + m.collateral) + m.vouchStake)) 0

def totalShare (y : LoanSyndication) : Nat := y.members.foldl (fun acc m => min u32Max (acc + m.shareBps)) 0

def position (y : LoanSyndication) (member : Address) : Option Nat :=
  y.members.findIdx? fun m => m.address = member

/-- The members, and the approvals they need. -/
def withMembers (y : LoanSyndication) (cfg : SyndicationConfig) (members : List SyndicationMember) :
    LoanSyndication :=
  { y with members, minApprovals := requiredApprovals members.length cfg.minApprovalPercentage }

/-- Both minimums are met. -/
def Quorate (y : LoanSyndication) (cfg : SyndicationConfig) : Prop :=
  cfg.minMembers ≤ y.members.length ∧ y.minApprovals ≤ y.approvalCount

instance (y : LoanSyndication) (cfg : SyndicationConfig) : Decidable (y.Quorate cfg) :=
  inferInstanceAs (Decidable (_ ∧ _))

def joinedBy (y : LoanSyndication) (cfg : SyndicationConfig) (record : SyndicationMember) : LoanSyndication :=
  { y.withMembers cfg (y.members ++ [record]) with
    totalCollateral := satI128 (y.totalCollateral + record.collateral)
    totalVouchStake := satI128 (y.totalVouchStake + record.vouchStake) }

/-- The record at `idx` is now `record`, which approves. -/
def withApproval (y : LoanSyndication) (cfg : SyndicationConfig) (idx : Nat) (record : SyndicationMember) :
    LoanSyndication :=
  { y.withMembers cfg (y.members.set idx record) with approvalCount := min u32Max (y.approvalCount + 1) }

def approvedBy (y : LoanSyndication) (cfg : SyndicationConfig) (idx : Nat) (record : SyndicationMember) :
    LoanSyndication :=
  let y := y.withApproval cfg idx record
  { y with status := if y.Quorate cfg then .ready else y.status }

/-- The member at `idx` is gone. -/
def without (y : LoanSyndication) (cfg : SyndicationConfig) (idx : Nat) (record : SyndicationMember) :
    LoanSyndication :=
  { y.withMembers cfg (y.members.eraseIdx idx) with
    totalCollateral := satI128 (y.totalCollateral - record.collateral)
    totalVouchStake := satI128 (y.totalVouchStake - record.vouchStake)
    approvalCount := if record.approved = true then y.approvalCount - 1 else y.approvalCount }

/-- A ready syndicate that is no longer quorate goes back to forming; a forming one
that becomes quorate stays where it is. -/
def leftBy (y : LoanSyndication) (cfg : SyndicationConfig) (idx : Nat) (record : SyndicationMember) :
    LoanSyndication :=
  let y := y.without cfg idx record
  { y with status := if y.status = .ready ∧ ¬ y.Quorate cfg then .forming else y.status }

end LoanSyndication

def loadSyndication (id : Nat) : Contract Syndications LoanSyndication := do
  orFail (← look (·.loanSyndication id)) (.error .syndicationNotFound)

def onSyndications (f : Syndications → Syndications) : Contract Syndications Unit := alter f

/-! ## Entry points -/

def createSyndication (creator : Address) (loanPurpose : String) (tokenAddress : Address) (totalAmount : Int) :
    Contract Syndications Nat := do
  requireAuth creator
  require (0 < totalAmount) (.error .invalidAmount)
  let cfg ← look (·.config)
  require (totalAmount ≤ cfg.maxLoanAmount) (.error .loanExceedsMaxAmount)
  requireAllowedToken tokenAddress
  let counter ← look (·.syndicationCounter)
  let id ← u64 (.error .arithmeticError) (counter + 1)
  let ctx ← ask
  onSyndications fun g =>
    { g with syndicationCounter := id }.saveSyndication
      { syndicationId := id, loanId := none, members := [], totalAmount, totalCollateral := 0, totalVouchStake := 0
        loanPurpose, tokenAddress, createdAt := ctx.now, disbursedAt := none, status := .forming, minApprovals := 0
        approvalCount := 0 }
  return id

def joinSyndication (id : Nat) (member : Address) (role : SyndicationRole) (shareBps : Nat)
    (collateral vouchStake : Int) : Contract SyndicationStore Unit := do
  requireAuth member
  let y ← loadSyndication id
  require (y.status = .forming) (.error .invalidSyndicationStatus)
  require (0 ≤ collateral ∧ 0 ≤ vouchStake) (.error .invalidAmount)
  require (0 < shareBps ∧ shareBps ≤ 10000) (.error .invalidSyndicationShare)
  let joined ← look (·.syndications.syndicationMember id member)
  require (joined = none) (.error .syndicationMemberExists)
  let cfg ← look (·.syndications.config)
  require (y.members.length < cfg.maxMembers) (.error .syndicationMaxMembersExceeded)
  require (min u32Max (y.totalShare + shareBps) ≤ 10000) (.error .invalidSyndicationShare)
  requireAllowedToken y.tokenAddress
  let contribution := satI128 (collateral + vouchStake)
  if 0 < contribution then collect y.tokenAddress member contribution else pure ()
  let ctx ← ask
  let record := { address := member, role, shareBps, collateral, vouchStake, approved := false, joinedAt := ctx.now }
  onSyndications fun g => (g.setMember id member (some record)).saveSyndication (y.joinedBy cfg record)

def approveSyndication (id : Nat) (member : Address) : Contract Syndications Unit := do
  requireAuth member
  let y ← loadSyndication id
  require (y.status = .forming) (.error .invalidSyndicationStatus)
  let idx ← orFail (y.position member) (.error .syndicationMemberNotFound)
  let record ← orFail y.members[idx]? .host
  if record.approved = true then return ()
  else do
    let record := { record with approved := true }
    let cfg ← look (·.config)
    onSyndications fun g => (g.setMember id member (some record)).saveSyndication (y.approvedBy cfg idx record)

def leaveSyndication (id : Nat) (member : Address) : Contract SyndicationStore Unit := do
  requireAuth member
  let y ← loadSyndication id
  require (y.status = .forming ∨ y.status = .ready) (.error .invalidSyndicationStatus)
  let idx ← orFail (y.position member) (.error .syndicationMemberNotFound)
  let record ← orFail y.members[idx]? .host
  let cfg ← look (·.syndications.config)
  if 0 < record.stake then do
    requireAllowedToken y.tokenAddress
    pay y.tokenAddress member record.stake
  else pure ()
  onSyndications fun g => (g.setMember id member none).saveSyndication (y.leftBy cfg idx record)

/-- The refunds of a cancelled syndicate. -/
def refundMembers (token : Address) : List SyndicationMember → Contract Ledger Unit
  | [] => return ()
  | m :: ms => do
    if 0 < m.stake then pay token m.address m.stake else pure ()
    refundMembers token ms

def cancelSyndication (id : Nat) (caller : Address) : Contract SyndicationStore Unit := do
  requireAuth caller
  let y ← loadSyndication id
  require (y.status = .forming ∨ y.status = .ready) (.error .invalidSyndicationStatus)
  require (∃ m ∈ y.members, m.address = caller) (.error .unauthorizedCaller)
  if 0 < satI128 (y.totalCollateral + y.totalVouchStake) then do
    requireAllowedToken y.tokenAddress
    refundMembers y.tokenAddress y.members
  else pure ()
  onSyndications (·.saveSyndication { y with status := .cancelled })

def requestSyndicationLoan (id : Nat) (leadBorrower : Address) : Contract SyndicationStore Nat := do
  requireAuth leadBorrower
  let y ← loadSyndication id
  require (y.status = .ready) (.error .invalidSyndicationStatus)
  require (y.loanId = none) (.error .syndicationHasLoan)
  require (∃ m ∈ y.members, m.address = leadBorrower ∧ m.role = .leadBorrower) (.error .unauthorizedCaller)
  require (y.totalAmount ≤ y.committedStake) (.error .minStakeNotMet)
  requireAllowedToken y.tokenAddress
  pay y.tokenAddress leadBorrower y.totalAmount
  let ctx ← ask
  onSyndications (·.saveSyndication { y with status := .active, disbursedAt := some ctx.now, loanId := some id })
  return id

def repaySyndicationLoan (id : Nat) (repayer : Address) (amount : Int) : Contract SyndicationStore Unit := do
  requireAuth repayer
  require (0 < amount) (.error .invalidAmount)
  let y ← loadSyndication id
  require (y.status = .active) (.error .invalidSyndicationStatus)
  requireAllowedToken y.tokenAddress
  collect y.tokenAddress repayer amount
  let counter ← look (·.syndications.syndicationRepaymentCounter id)
  let _ ← u64 (.error .arithmeticError) (counter + 1)
  let ctx ← ask
  onSyndications (·.addRepayment id { syndicationId := id, repayer, amount, timestamp := ctx.now })
  let repaid ← look (·.syndications.totalRepaid id)
  if y.totalAmount ≤ repaid then onSyndications (·.saveSyndication { y with status := .repaid }) else pure ()

/-- The member's part of the shortfall, at most what it has put in. -/
def SyndicationMember.loss (m : SyndicationMember) (shortfall totalStake : Int) : Int :=
  max (min ((satI128 (shortfall * m.stake)).tdiv totalStake) m.stake) 0

/-- A loss takes the vouch stake first. -/
def SyndicationMember.charge (m : SyndicationMember) (loss : Int) : SyndicationMember :=
  let fromVouch := min loss m.vouchStake
  let fromCollateral := min (satI128 (loss - fromVouch)) m.collateral
  { m with vouchStake := satI128 (m.vouchStake - fromVouch), collateral := satI128 (m.collateral - fromCollateral) }

def SyndicationMember.defaulted (m : SyndicationMember) (shortfall totalStake : Int) : SyndicationMember :=
  if 0 < m.stake then m.charge (m.loss shortfall totalStake) else m

/-- The members' own records after the losses. -/
def chargeRecords (id : Nat) (shortfall totalStake : Int) (members : List SyndicationMember) (g : Syndications) :
    Syndications :=
  members.foldl (fun g m =>
    if 0 < m.stake then g.setMember id m.address (some (m.defaulted shortfall totalStake)) else g) g

/-- The syndicate after a default with that shortfall. -/
def LoanSyndication.defaultedWith (y : LoanSyndication) (shortfall : Int) : LoanSyndication :=
  let members := y.members.map (·.defaulted shortfall y.committedStake)
  { y with
    members
    totalCollateral := members.foldl (fun acc m => satI128 (acc + m.collateral)) 0
    totalVouchStake := members.foldl (fun acc m => satI128 (acc + m.vouchStake)) 0
    status := .defaulted }

def handleSyndicationDefault (id : Nat) (caller : Address) : Contract Syndications Unit := do
  requireAuth caller
  let y ← loadSyndication id
  require (y.status = .active) (.error .invalidSyndicationStatus)
  let repaid ← look (·.totalRepaid id)
  let shortfall := satI128 (y.totalAmount - repaid)
  require (0 < shortfall) (.error .alreadyRepaid)
  if 0 < y.committedStake then
    onSyndications fun g =>
      (chargeRecords id shortfall y.committedStake y.members g).saveSyndication (y.defaultedWith shortfall)
  else onSyndications (·.saveSyndication { y with status := .defaulted })

inductive SyndicationOp where
  | createSyndication (creator : Address) (loanPurpose : String) (tokenAddress : Address) (totalAmount : Int)
  | joinSyndication (id : Nat) (member : Address) (role : SyndicationRole) (shareBps : Nat)
      (collateral vouchStake : Int)
  | approveSyndication (id : Nat) (member : Address)
  | leaveSyndication (id : Nat) (member : Address)
  | cancelSyndication (id : Nat) (caller : Address)
  | requestSyndicationLoan (id : Nat) (leadBorrower : Address)
  | repaySyndicationLoan (id : Nat) (repayer : Address) (amount : Int)
  | handleSyndicationDefault (id : Nat) (caller : Address)

def SyndicationOp.run : SyndicationOp → Contract SyndicationStore Unit
  | .createSyndication creator purpose token total =>
    discard (monadLift (QuorumCredit.createSyndication creator purpose token total))
  | .joinSyndication id member role share c v => QuorumCredit.joinSyndication id member role share c v
  | .approveSyndication id member => monadLift (QuorumCredit.approveSyndication id member)
  | .leaveSyndication id member => QuorumCredit.leaveSyndication id member
  | .cancelSyndication id caller => QuorumCredit.cancelSyndication id caller
  | .requestSyndicationLoan id lead => discard (QuorumCredit.requestSyndicationLoan id lead)
  | .repaySyndicationLoan id repayer amount => QuorumCredit.repaySyndicationLoan id repayer amount
  | .handleSyndicationDefault id caller => monadLift (QuorumCredit.handleSyndicationDefault id caller)

/-- The syndicates as a part of the contract: the other entry points may change the
world and the money. -/
def syndicates : Component World (List Address) Context Failure SyndicationStore SyndicationOp where
  run := SyndicationOp.run
  context w signers := { w with signers }
  drift w s w' s' := w.now ≤ w'.now ∧ w'.contract = w.contract ∧ s'.syndications = s.syndications

abbrev SyndicationHistory :=
  List (Situated World SyndicationStore × Event World (List Address) SyndicationStore SyndicationOp)

/-- No syndicate yet, under the stored configuration or, without one, the default. -/
def syndicationStart (world : World) (bank : Ledger) (cfg : Option SyndicationConfig) :
    Situated World SyndicationStore :=
  ⟨world, ⟨bank, .empty cfg⟩⟩

end QuorumCredit
