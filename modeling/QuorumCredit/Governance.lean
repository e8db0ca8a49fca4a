import QuorumCredit.Loan
/-!
# Slash votes

`governance.rs`: delegating a vote, voting on a slash, and the two ways an
approved slash is executed, by the vote itself or by the pending record a
quorum leaves behind.
-/

open Host Function

namespace QuorumCredit

/-! ## Delegation -/

/-- The hops of `resolve_vote_delegation`, at most `fuel` of them, stopping before a visited address. -/
def followDelegation (delegation : Address → Option Address) (fuel : Nat) (visited : List Address)
    (current : Address) : Address :=
  match fuel with
  | 0 => current
  | fuel + 1 =>
    match delegation current with
    | some delegate =>
      if delegate ∈ visited then current
      else followDelegation delegation fuel (visited ++ [delegate]) delegate
    | none => current

/-- `resolve_vote_delegation`: who votes with this voucher's stake. -/
def Ballots.resolveVoteDelegation (b : Ballots) (voucher : Address) : Address :=
  followDelegation b.voteDelegation 10 [voucher] voucher

/-- The check of `delegate_vote`: does the chain from `current` come back to the voucher? -/
def delegatesTo (delegation : Address → Option Address) (voucher : Address) (fuel : Nat) (visited : List Address)
    (current : Address) : Bool :=
  match fuel with
  | 0 => false
  | fuel + 1 =>
    if current = voucher then true
    else
      match delegation current with
      | some next => if next ∈ visited then false else delegatesTo delegation voucher fuel (visited ++ [next]) next
      | none => false

def setVoteDelegation (voucher : Address) (delegate : Option Address) : Contract Ballots Unit :=
  alter fun b => { b with voteDelegation := update b.voteDelegation voucher delegate }

def delegateVote (voucher delegate : Address) : Contract Store Unit := do
  requireAuth voucher
  requireNotPaused
  require (voucher ≠ delegate) (.error .invalidStateTransition)
  let ballots ← look (·.ballots)
  require (delegatesTo ballots.voteDelegation voucher 10 [voucher] delegate = false) (.error .circularDelegation)
  setVoteDelegation voucher (some delegate)

def revokeVoteDelegation (voucher : Address) : Contract Store Unit := do
  requireAuth voucher
  requireNotPaused
  let ballots ← look (·.ballots)
  require (ballots.voteDelegation voucher ≠ none) (.error .delegationNotFound)
  setVoteDelegation voucher none

/-! ## Voting -/

/-- Time since the borrower's last executed slash. -/
def requireSlashCooldown (borrower : Address) : Contract Slashing Unit := do
  let ctx ← ask
  let last ← look (·.lastSlashedAt borrower)
  match last with
  | some last =>
    require (ctx.config.slashCooldownSeconds = 0 ∨ ctx.config.slashCooldownSeconds ≤ ctx.now - last)
      (.error .slashCooldownActive)
  | none => return ()

/-- The borrower must have a loan that can be slashed. -/
def requireSlashable (borrower : Address) : Contract LoanBook Unit := do
  let book ← look id
  match book.getLatestLoanRecord borrower with
  | some latest => require (latest.status ≠ .repaid) (.assertion "loan already repaid")
  | none => pure ()
  let loan ← orFail (book.getActiveLoanRecord borrower) (.error .noActiveLoan)
  require (loan.status = .active) (.error .noActiveLoan)

def quorumBps (w : World) : Nat := w.slashVoteQuorum.getD defaultSlashVoteQuorumBps

/-- The stakes `voter` votes with, beyond the voter's own: those delegated to it. -/
def delegatedTo (ballots : Ballots) (voter : Address) (vouches : List VouchRecord) : List VouchRecord :=
  vouches.filter fun v =>
    ballots.resolveVoteDelegation v.voucher ≠ v.voucher ∧ ballots.resolveVoteDelegation v.voucher = voter

/-- The record to count a vote in. -/
def openVote (ballots : Ballots) (book : LoanBook) (borrower : Address) : Contract Ballots SlashVoteRecord := do
  let vote := (ballots.slashVote borrower).getD .fresh
  if vote.executed = true then
    -- a fresh loan resets the record for the new proposal
    if book.hasActiveLoan borrower = true then return .fresh else fail (.panic .slashAlreadyExecuted)
  else return vote

/-- The record with one more vote in it. -/
def addVote (vote : SlashVoteRecord) (voter : Address) (stake : Int) (approve : Bool) :
    Contract Ballots SlashVoteRecord := do
  let approveStake ← i128 (.error .arithmeticError)
      (if approve = true then vote.approveStake + stake else vote.approveStake)
  let rejectStake ← i128 (.error .arithmeticError)
      (if approve = true then vote.rejectStake else vote.rejectStake + stake)
  return { vote with approveStake, rejectStake, voters := vote.voters ++ [voter] }

/-- Whether the approving share of the total stake, rounded up, reaches the quorum. -/
def quorumReached (approveStake totalStake : Int) : Contract Ballots Bool := do
  let ctx ← ask
  if 0 < totalStake then do
    let product ← i128 (.error .arithmeticError) (approveStake * bpsDenominator)
    let sum ← i128 (.error .arithmeticError) (product + totalStake)
    return decide ((quorumBps ctx.toWorld : Int) ≤ (sum - 1).tdiv totalStake)
  else return false

def setSlashVote (borrower : Address) (vote : SlashVoteRecord) : Contract Ballots Unit :=
  alter fun b => { b with slashVote := update b.slashVote borrower (some vote) }

def setPendingSlash (borrower : Address) (pending : PendingSlashRecord) : Contract Ballots Unit :=
  alter fun b => { b with pendingSlash := update b.pendingSlash borrower (some pending) }

/-- Stores the vote; a quorum marks it executed and leaves a pending slash. -/
def recordVote (borrower : Address) (vote : SlashVoteRecord) (totalStake : Int) : Contract Ballots Unit := do
  let ctx ← ask
  let reached ← quorumReached vote.approveStake totalStake
  if reached = true then do
    setSlashVote borrower { vote with executed := true }
    let executableAt ← u64 .arithmetic (ctx.now + ctx.config.slashDelaySeconds)
    setPendingSlash borrower { borrower, approvedAt := ctx.now, executableAt, executed := false }
  else setSlashVote borrower vote

/-- Counts the voter's vote, which carries the stakes delegated to it. -/
def castVote (voter borrower : Address) (approve : Bool) (vouches : List VouchRecord) (book : LoanBook) :
    Contract Ballots Unit := do
  let ballots ← look id
  let own ← orFail (findVouch voter vouches) (.error .voucherNotFound)
  let totalStake ← sumI128 .arithmetic 0 (vouches.map (·.stake))
  let stake ← sumI128 .arithmetic own.stake ((delegatedTo ballots voter vouches).map (·.stake))
  let vote ← openVote ballots book borrower
  require (∀ v ∈ vote.voters, ballots.resolveVoteDelegation v ≠ voter) (.error .alreadyVoted)
  let vote ← addVote vote voter stake approve
  recordVote borrower vote totalStake

def voteSlash (voter borrower : Address) (approve : Bool) : Contract Store VoteSlashResult := do
  requireAuth voter
  requireNotPaused
  let ballots ← look (·.ballots)
  -- an executed vote is refused before the active loan is looked at
  require (∀ v, ballots.slashVote borrower = some v → v.executed = false) (.error .slashAlreadyExecuted)
  requireSlashCooldown borrower
  requireSlashable borrower
  let vouches ← look (·.vault.vouching.vouchesOf borrower)
  let book ← look (·.book)
  if ballots.resolveVoteDelegation voter ≠ voter then return .delegateWillVote
  else do
    castVote voter borrower approve vouches book
    return .voteCounted

/-! ## Executing a slash -/

def nextSlashId : Contract Slashing Nat := do
  let counter ← look (·.slashRecordCounter)
  require (counter < u64Max) (.error .arithmeticOverflow)
  alter fun x => { x with slashRecordCounter := counter + 1 }
  return counter + 1

/-- The rate of `execute_slash`: 500 bps more for each earlier default, up to everything. -/
def effectiveSlashBps (cfg : Config) (defaultCount : Nat) : Int :=
  min (cfg.slashBps + (defaultCount : Int) * 500) 10000

/-- `stats.total_vouches_slashed += 1; stats.total_slashed += slash_amount`. -/
def addSlashed (voucher : Address) (slashAmount : Int) : Contract Vouching Unit := do
  let stats ← look (·.statsOf voucher)
  let total ← i128 .arithmetic (stats.totalSlashed + slashAmount)
  alter (·.setStats voucher
    { stats with totalVouchesSlashed := stats.totalVouchesSlashed + 1, totalSlashed := total })

/-- One record in the loan's token: its slashed share is kept, the rest goes back. -/
def seizeStake (bps : Int) (v : VouchRecord) : Contract Vault Int := do
  let product ← i128 (.error .arithmeticError) (v.stake * bps)
  let slashAmount := product.tdiv bpsDenominator
  let remaining ← i128 (.error .arithmeticError) (v.stake - slashAmount)
  if 0 < remaining then pay v.token v.voucher remaining else pure ()
  addSlashed v.voucher slashAmount
  return slashAmount

/-- The loop of `execute_slash`. A record in another token is paid back in full
and stays on the list. Returns what was slashed and the list that stays. -/
def seizeStakes (loanToken : Address) (bps total : Int) (remaining : List VouchRecord) :
    List VouchRecord → Contract Vault (Int × List VouchRecord)
  | [] => return (total, remaining)
  | v :: vs =>
    if v.token ≠ loanToken then do
      let ctx ← ask
      if ctx.isZeroAddress v.token = false then pay v.token v.voucher v.stake else pure ()
      seizeStakes loanToken bps total (remaining ++ [v]) vs
    else do
      let slashAmount ← seizeStake bps v
      let total ← i128 (.error .arithmeticError) (total + slashAmount)
      seizeStakes loanToken bps total remaining vs

/-- The vouchers' side of a slash: stakes seized or returned, the list that
stays stored. Returns the total slashed. -/
def slashVouches (borrower loanToken : Address) (bps : Int) : Contract Vault Int := do
  let vouches ← look (·.vouching.vouchesOf borrower)
  let (total, remaining) ← seizeStakes loanToken bps 0 [] vouches
  alter fun x : Vault =>
    { x with vouching := if remaining = [] then x.vouching.removeVouches borrower else x.vouching.setVouches borrower remaining }
  return total

/-- The records of a slash: escrow, audit entry and monthly index. -/
def recordSlash (loan : LoanRecord) (borrower : Address) (totalSlashed bps : Int) : Contract Slashing Unit := do
  let ctx ← ask
  let release ← u64 .arithmetic (ctx.now + slashEscrowPeriod)
  let slashId ← nextSlashId
  let record : SlashRecord :=
    { slashId, borrower, loanId := loan.id, loanAmount := loan.amount, totalSlashed, slashTimestamp := ctx.now
      recoveryAmount := 0, reversalReason := none, reversed := false, effectiveSlashBps := bps }
  let month := ctx.now / monthlyPeriodSecs
  alter fun x =>
    { x with
      lastSlashedAt := update x.lastSlashedAt borrower (some ctx.now)
      slashEscrow := update x.slashEscrow borrower (some (.slashed totalSlashed release))
      slashRecord := update x.slashRecord slashId (some record)
      slashAudit := update x.slashAudit borrower (some record)
      slashesByMonth := update x.slashesByMonth month (x.slashesByMonth month ++ [slashId]) }

/-- The book after `execute_slash` on the borrower's loan. -/
def LoanBook.settleDefaulted (k : LoanBook) (borrower : Address) (loan : LoanRecord) : LoanBook :=
  ((((k.setLoan loan.id { loan with status := .defaulted }).setLatestLoan borrower loan.id).setActiveLoan
    borrower none).addDefault borrower).incrementTotalDefaultCount

def executeSlash (borrower : Address) : Contract Store Unit := do
  let ctx ← ask
  requireSlashCooldown borrower
  let vouches ← look (·.vault.vouching.vouchesOf borrower)
  let book ← look (·.book)
  let loan ← orFail (book.getActiveLoanRecord borrower) (.error .noActiveLoan)
  require (loan.status ≠ .defaulted) (.panic .slashAlreadyExecuted)
  -- summed and not used, but the sum can trap
  let _ ← sumI128 .arithmetic 0 (vouches.map (·.stake))
  let bps := effectiveSlashBps ctx.config (book.defaultCount borrower)
  let totalSlashed ← slashVouches borrower loan.tokenAddress bps
  onBook (·.settleDefaulted borrower loan)
  recordSlash loan borrower totalSlashed bps
  processWithdrawalQueue borrower

/-- The stake that must approve, rounded up. -/
def quorumStake (w : World) (totalStake : Int) : Int :=
  let product := if FitsI128 (totalStake * quorumBps w) then totalStake * quorumBps w else i128Max
  let sum := if FitsI128 (product + (bpsDenominator - 1)) then product + (bpsDenominator - 1) else i128Max
  sum.tdiv bpsDenominator

def executeSlashVote (borrower : Address) : Contract Store Unit := do
  let ctx ← ask
  requireNotPaused
  let ballots ← look (·.ballots)
  let vote ← orFail (ballots.slashVote borrower) (.error .slashVoteNotFound)
  require (vote.executed = false) (.error .slashAlreadyExecuted)
  let vouches ← look (·.vault.vouching.vouchesOf borrower)
  let totalStake ← sumI128 .arithmetic 0 (vouches.map (·.stake))
  require (quorumStake ctx.toWorld totalStake ≤ vote.approveStake) (.error .quorumNotMet)
  setSlashVote borrower { vote with executed := true }
  executeSlash borrower

def executePendingSlash (borrower : Address) : Contract Store Unit := do
  let ctx ← ask
  requireNotPaused
  let ballots ← look (·.ballots)
  let pending ← orFail (ballots.pendingSlash borrower) (.error .slashVoteNotFound)
  require (pending.executed = false) (.error .slashAlreadyExecuted)
  require (pending.executableAt ≤ ctx.now) (.error .delayNotElapsed)
  setPendingSlash borrower { pending with executed := true }
  executeSlash borrower

end QuorumCredit
