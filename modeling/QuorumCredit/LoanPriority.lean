import QuorumCredit.Frames
import QuorumCredit.Host.Component
import QuorumCredit.Host.Waterfall
import Mathlib.Data.List.Sort
/-!
# Loan priority

`loan_priority.rs`: the loans of a pool are queued by tranche, Senior before
Mezzanine before Junior, and what a default recovers is routed through the queue.
No other entry point writes these entries.
-/

open Host Function Waterfall

namespace QuorumCredit

inductive LoanPriority where
  | senior | mezzanine | junior
deriving DecidableEq, Repr

def LoanPriority.rank : LoanPriority → Nat
  | .senior => 0
  | .mezzanine => 1
  | .junior => 2

structure PriorityLoanEntry where
  loanId : Nat
  borrower : Address
  priority : LoanPriority
  amount : Int
deriving DecidableEq, Repr

structure PriorityQueue where
  poolId : Nat
  entries : List PriorityLoanEntry
  createdAt : Nat
  updatedAt : Nat

structure WaterfallDistributionEntry where
  loanId : Nat
  borrower : Address
  priority : LoanPriority
  owed : Int
  paid : Int
deriving DecidableEq, Repr

structure WaterfallRun where
  runId : Nat
  poolId : Nat
  totalProceeds : Int
  distributed : Int
  shortfall : Int
  timestamp : Nat
  entries : List WaterfallDistributionEntry

structure PriorityChangeProposal where
  proposalId : Nat
  poolId : Nat
  loanId : Nat
  newPriority : LoanPriority
  proposer : Address
  approvals : List Address
  createdAt : Nat
  executed : Bool

/-- The storage entries of the module. `formerQueue` is the entry under the bare key
`Queue`, which the keys by pool replaced: nothing writes it. The clean-up after a run
names that key, `remove(&PriorityDataKey::Queue)`, and so does not type-check since
`Queue` takes a pool. It is given the meaning it had: it removes that entry alone. -/
structure LoanPriorities where
  queue : Nat → Option PriorityQueue
  formerQueue : Option PriorityQueue
  waterfallRunCounter : Nat
  waterfallRun : Nat → Option WaterfallRun
  proposalCounter : Nat
  proposal : Nat → Option PriorityChangeProposal

def LoanPriorities.empty : LoanPriorities :=
  { queue := fun _ => none, formerQueue := none, waterfallRunCounter := 0, waterfallRun := fun _ => none
    proposalCounter := 0, proposal := fun _ => none }

/-- These entries, beside what the entry points read of the rest of the contract. -/
structure PriorityStore where
  book : LoanBook
  bank : Ledger
  priorities : LoanPriorities

instance : Part PriorityStore (Bank Address Address) where
  get := PriorityStore.bank
  set b s := { s with bank := b }
instance : Part PriorityStore LoanPriorities where
  get := PriorityStore.priorities
  set g s := { s with priorities := g }

/-! ## Entry points -/

/-- Inserts before the first entry of a later tranche. -/
def insertByPriority (entry : PriorityLoanEntry) : List PriorityLoanEntry → List PriorityLoanEntry :=
  List.orderedInsert (fun e e' => e.priority.rank < e'.priority.rank) entry

def sortByPriority (entries : List PriorityLoanEntry) : List PriorityLoanEntry :=
  entries.foldl (fun sorted entry => insertByPriority entry sorted) []

def createLoanPriorityQueue (adminSigners : List Address) (poolId : Nat) (loans : List PriorityLoanEntry) :
    Contract LoanPriorities Unit := do
  requireAdminApproval adminSigners
  require (loans ≠ []) (.error .invalidAmount)
  let ctx ← ask
  let queue := { poolId, entries := sortByPriority loans, createdAt := ctx.now, updatedAt := ctx.now }
  alter fun g : LoanPriorities => { g with queue := update g.queue poolId (some queue) }

/-- `helpers::get_loan_by_id`, and the transfer in the loan's token. -/
def payEntry (e : PriorityLoanEntry) (paid : Int) : Contract PriorityStore Unit := do
  let loan ← orFail (← look (·.book.loan e.loanId)) (.error .noActiveLoan)
  pay loan.tokenAddress e.borrower paid

/-- The loop of `route_default_proceeds`. -/
def routeEntries : List PriorityLoanEntry → Int → Int → List WaterfallDistributionEntry →
    Contract PriorityStore (Int × List WaterfallDistributionEntry)
  | [], _, distributed, entries => return (distributed, entries)
  | e :: rest, remaining, distributed, entries => do
    let paid := share remaining e.amount
    let remaining ← i128 .arithmetic (remaining - paid)
    let distributed ← i128 .arithmetic (distributed + paid)
    if 0 < paid then payEntry e paid else pure ()
    routeEntries rest remaining distributed
      (entries ++ [{ loanId := e.loanId, borrower := e.borrower, priority := e.priority, owed := e.amount, paid }])

def routeDefaultProceeds (adminSigners : List Address) (poolId : Nat) (totalProceeds : Int) :
    Contract PriorityStore WaterfallRun := do
  requireAdminApproval adminSigners
  require (0 ≤ totalProceeds) (.error .invalidAmount)
  let queue ← orFail (← look (·.priorities.queue poolId)) (.error .invalidAmount)
  let (distributed, entries) ← routeEntries queue.entries totalProceeds 0 []
  let counter ← look (·.priorities.waterfallRunCounter)
  require (counter < u64Max) (.error .arithmeticError)
  let runId := counter + 1
  let shortfall ← i128 .arithmetic (totalProceeds - distributed)
  let ctx ← ask
  let run := { runId, poolId, totalProceeds, distributed, shortfall, timestamp := ctx.now, entries }
  alter fun s : PriorityStore =>
    { s with
      priorities.waterfallRunCounter := runId
      priorities.waterfallRun := update s.priorities.waterfallRun runId (some run)
      -- the clean-up line, which no longer type-checks: it names the bare key, not the pool's
      priorities.formerQueue := none }
  return run

def proposePriorityChange (proposer : Address) (poolId loanId : Nat) (newPriority : LoanPriority) :
    Contract LoanPriorities Nat := do
  requireAuth proposer
  let ctx ← ask
  require (proposer ∈ ctx.config.admins) (.error .unauthorizedCaller)
  let counter ← look (·.proposalCounter)
  require (counter < u64Max) (.error .arithmeticError)
  let proposalId := counter + 1
  let proposal :=
    { proposalId, poolId, loanId, newPriority, proposer, approvals := [proposer], createdAt := ctx.now
      executed := false }
  alter fun g : LoanPriorities =>
    { g with proposalCounter := proposalId, proposal := update g.proposal proposalId (some proposal) }
  return proposalId

def PriorityChangeProposal.retag (proposal : PriorityChangeProposal) (e : PriorityLoanEntry) : PriorityLoanEntry :=
  if e.loanId = proposal.loanId then { e with priority := proposal.newPriority } else e

def approvePriorityChange (approver : Address) (proposalId : Nat) : Contract LoanPriorities Bool := do
  requireAuth approver
  let ctx ← ask
  require (approver ∈ ctx.config.admins) (.error .unauthorizedCaller)
  let proposal ← orFail (← look (·.proposal proposalId)) (.error .invalidAmount)
  require (proposal.executed = false) (.error .invalidAmount)
  let approvals := if approver ∈ proposal.approvals then proposal.approvals else proposal.approvals ++ [approver]
  let proposal := { proposal with approvals }
  if ctx.config.adminThreshold ≤ approvals.length then do
    let queue ← orFail (← look (·.queue proposal.poolId)) (.error .invalidAmount)
    let queue := { queue with entries := sortByPriority (queue.entries.map proposal.retag), updatedAt := ctx.now }
    alter fun g : LoanPriorities =>
      { g with
        queue := update g.queue proposal.poolId (some queue)
        proposal := update g.proposal proposalId (some { proposal with executed := true }) }
    return true
  else do
    alter fun g : LoanPriorities => { g with proposal := update g.proposal proposalId (some proposal) }
    return proposal.executed

inductive PriorityOp where
  | createLoanPriorityQueue (adminSigners : List Address) (poolId : Nat) (loans : List PriorityLoanEntry)
  | routeDefaultProceeds (adminSigners : List Address) (poolId : Nat) (totalProceeds : Int)
  | proposePriorityChange (proposer : Address) (poolId loanId : Nat) (newPriority : LoanPriority)
  | approvePriorityChange (approver : Address) (proposalId : Nat)

def PriorityOp.run : PriorityOp → Contract PriorityStore Unit
  | .createLoanPriorityQueue signers poolId loans => QuorumCredit.createLoanPriorityQueue signers poolId loans
  | .routeDefaultProceeds signers poolId total => discard (QuorumCredit.routeDefaultProceeds signers poolId total)
  | .proposePriorityChange proposer poolId loanId newPriority =>
    discard (monadLift (QuorumCredit.proposePriorityChange proposer poolId loanId newPriority))
  | .approvePriorityChange approver proposalId =>
    discard (monadLift (QuorumCredit.approvePriorityChange approver proposalId))

/-- The priority queues as a part of the contract: the other entry points may
change the world, the loans and the money. -/
def loanPriorities : Component World (List Address) Context Failure PriorityStore PriorityOp where
  run := PriorityOp.run
  context w signers := { w with signers }
  drift w s w' s' := w.now ≤ w'.now ∧ w'.contract = w.contract ∧ s'.priorities = s.priorities

abbrev PriorityHistory := List (Situated World PriorityStore × Event World (List Address) PriorityStore PriorityOp)

/-- No queue created yet. -/
def priorityStart (world : World) (book : LoanBook) (bank : Ledger) : Situated World PriorityStore :=
  ⟨world, ⟨book, bank, .empty⟩⟩

end QuorumCredit
