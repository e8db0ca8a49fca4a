import QuorumCredit.Governance
/-!
# What becomes of slashed funds

The operations on what a slash left behind: reversal and appeals
(`governance.rs`), the release of the escrow to the treasury (`loan.rs`), and
the withdrawals from the treasury (`lib.rs`, `admin.rs`). A slash stores its
escrow as a pair, an appeal stores a record under the same key, and each side
reads the entry as its own.
-/

open Host Function

namespace QuorumCredit

/-! ## Reversing a slash -/

def saveReversal (slashId : Nat) (record : SlashRecord) : Contract Slashing Unit :=
  alter fun x =>
    { x with
      slashRecord := update x.slashRecord slashId (some record)
      slashAudit := update x.slashAudit record.borrower (some record) }

def reverseSlash (adminSigners : List Address) (slashId : Nat) (reason : String) : Contract Store Unit := do
  requireNotPaused
  requireAdminApproval adminSigners
  let record ← orFail (← look (·.slashing.slashRecord slashId)) (.error .slashRecordNotFound)
  require (record.reversed = false) (.error .slashAlreadyReversed)
  let book ← look (·.book)
  let loan ← orFail (book.getLatestLoanRecord record.borrower) (.error .noActiveLoan)
  -- the whole slash is paid to the borrower, whatever has become of it meanwhile
  pay loan.tokenAddress record.borrower record.totalSlashed
  saveReversal slashId { record with reversed := true, reversalReason := some reason }

/-! ## The escrow and the treasury -/

/-- The escrow entry read as the pair a slash writes. -/
def slashedEscrow (borrower : Address) : Contract Slashing (Option (Int × Nat)) := do
  match ← look (·.slashEscrow borrower) with
  | none => return none
  | some (.slashed amount release) => return some (amount, release)
  | some (.appealed _) => fail .decode

/-- The escrow entry read as the record an appeal writes. -/
def appealedEscrow (borrower : Address) : Contract Slashing (Option SlashEscrow) := do
  match ← look (·.slashEscrow borrower) with
  | none => return none
  | some (.slashed ..) => fail .decode
  | some (.appealed escrow) => return some escrow

def setEscrow (borrower : Address) (entry : Option EscrowEntry) : Contract Slashing Unit :=
  alter fun x => { x with slashEscrow := update x.slashEscrow borrower entry }

def releaseSlashEscrow (adminSigners : List Address) (borrower : Address) : Contract Store Unit := do
  let ctx ← ask
  requireAdminApproval adminSigners
  let (amount, release) ← orFail (← slashedEscrow borrower) (.error .noActiveLoan)
  require (release ≤ ctx.now) (.error .timelockNotReady)
  addSlashBalance amount
  setEscrow borrower none

def setTreasury (amount : Int) : Contract Slashing Unit :=
  alter fun x => { x with slashTreasury := amount }

/-- `slash_treasury`: the whole treasury goes to `recipient`. -/
def slashTreasury (adminSigners : List Address) (recipient : Address) : Contract Store Unit := do
  let ctx ← ask
  requireAdminApproval adminSigners
  let amount ← look (·.slashing.slashTreasury)
  require (0 < amount) (.assertion "no slashed funds to withdraw")
  setTreasury 0
  pay ctx.config.token recipient amount

/-- `check_admin_permission` for the permission to manage fees. -/
def AdminRole.managesFees : AdminRole → Bool
  | .superAdmin | .treasurer => true
  | .monitor | .slasher | .governanceOperator => false

def requireFeeManagers : List Address → Contract Slashing Unit
  | [] => return ()
  | signer :: rest => do
    let ctx ← ask
    require (signer ∈ ctx.config.admins) (.panic .unauthorizedCaller)
    require (ctx.revokedAdmin signer = false) (.panic .unauthorizedCaller)
    let role ← orFail (ctx.adminRole signer) (.panic .permissionDenied)
    require (role.managesFees = true) (.panic .permissionDenied)
    requireAuth signer
    requireFeeManagers rest

def withdrawSlashTreasury (adminSigners : List Address) (recipient : Address) (amount : Int) : Contract Store Unit := do
  let ctx ← ask
  require (ctx.config.adminThreshold ≤ adminSigners.length) (.panic .unauthorizedCaller)
  requireFeeManagers adminSigners
  require (0 < amount) (.assertion "amount must be greater than zero")
  let balance ← look (·.slashing.slashTreasury)
  require (amount ≤ balance) (.assertion "insufficient slash treasury balance")
  setTreasury (balance - amount)
  pay ctx.config.token recipient amount

/-! ## Appeals -/

def openAppeal (borrower : Address) (escrow : SlashEscrow) (appeal : SlashEscrowAppealRecord) :
    Contract Slashing Unit :=
  alter fun x =>
    { x with
      slashEscrow := update x.slashEscrow borrower (some (.appealed escrow))
      slashEscrowAppeal := update x.slashEscrowAppeal borrower (some appeal) }

def appealSlash (borrower : Address) : Contract Store Unit := do
  requireAuth borrower
  requireNotPaused
  let ctx ← ask
  require (ctx.evidenceAppealPending borrower = false) (.error .appealAlreadyPending)
  let existing ← appealedEscrow borrower
  -- an appeal that has ended can be opened again
  require (∀ e, existing = some e → e.releaseTimestamp ≤ ctx.now) (.error .appealNotFound)
  let book ← look (·.book)
  let loan ← orFail (book.getLatestLoanRecord borrower) (.error .noActiveLoan)
  require (loan.status = .defaulted) (.error .invalidStateTransition)
  let record ← orFail (← look (·.slashing.slashAudit borrower)) (.error .slashRecordNotFound)
  let release ← u64 .arithmetic (ctx.now + slashAppealPeriod)
  openAppeal borrower
    { borrower, loanId := loan.id, escrowAmount := record.totalSlashed, releaseTimestamp := release,
      status := .pending }
    { borrower, loanId := loan.id, approveStake := 0, rejectStake := 0, voters := [], appealTimestamp := ctx.now }

/-- The stakes `voter` votes with: own records and those it is the delegate of,
unless their voucher has voted. Summed from `acc`, with their vouchers. -/
def appealStake (voter : Address) (voted : List Address) (acc : Int × List Address) :
    List VouchRecord → Contract Slashing (Int × List Address)
  | [] => return acc
  | v :: vs =>
    if (v.voucher = voter ∨ v.delegate = some voter) ∧ v.voucher ∉ voted then do
      let stake ← i128 (.error .arithmeticError) (acc.1 + v.stake)
      appealStake voter voted (stake, acc.2 ++ [v.voucher]) vs
    else appealStake voter voted acc vs

/-- `approve_stake * BPS / total_stake >= APPEAL_OVERRIDE_QUORUM_BPS`, for a positive total. -/
def appealApproved (appeal : SlashEscrowAppealRecord) (totalStake : Int) : Contract Slashing Bool := do
  if 0 < totalStake then do
    let product ← i128 (.error .arithmeticError) (appeal.approveStake * bpsDenominator)
    return appealOverrideQuorumBps ≤ product.tdiv totalStake
  else return false

/-- The vouchers' shares of the escrow: each by its proportion in basis points, the last the remainder. -/
def returnEscrow (token : Address) (escrowAmount totalStake distributed : Int) :
    List VouchRecord → Contract Ledger Unit
  | [] => return ()
  | [v] => do
    let returned ← i128 (.error .arithmeticError) (escrowAmount - distributed)
    let _ ← i128 (.error .arithmeticError) (distributed + returned)
    if 0 < returned then pay token v.voucher returned else pure ()
  | v :: vs => do
    let product ← i128 (.error .arithmeticError) (v.stake * bpsDenominator)
    let proportion := (product.tdiv totalStake) % 2 ^ 32
    let share ← i128 (.error .arithmeticError) (escrowAmount * proportion)
    let returned := share.tdiv bpsDenominator
    let distributed ← i128 (.error .arithmeticError) (distributed + returned)
    if 0 < returned then pay token v.voucher returned else pure ()
    returnEscrow token escrowAmount totalStake distributed vs

/-- The rejected escrow goes to the treasury's persistent entry. -/
def burnEscrow (amount : Int) : Contract Slashing Unit := do
  let current ← look (·.persistentTreasury)
  let total ← i128 (.error .arithmeticError) (current + amount)
  alter fun x => { x with persistentTreasury := total }

def finalizeAppealInternal (borrower : Address) : Contract Store Unit := do
  let escrow ← orFail (← appealedEscrow borrower) (.error .appealNotFound)
  require (escrow.status = .pending) (.error .invalidStateTransition)
  let appeal ← orFail (← look (·.slashing.slashEscrowAppeal borrower)) (.error .appealNotFound)
  let vouches ← look (·.vault.vouching.vouchesOf borrower)
  let totalStake ← sumI128 .arithmetic 0 (vouches.map (·.stake))
  let approved ← appealApproved appeal totalStake
  if approved = true then do
    let book ← look (·.book)
    let loan ← orFail (book.getLatestLoanRecord borrower) (.error .noActiveLoan)
    returnEscrow loan.tokenAddress escrow.escrowAmount totalStake 0 vouches
    setEscrow borrower (some (.appealed { escrow with status := .approved }))
  else do
    burnEscrow escrow.escrowAmount
    setEscrow borrower (some (.appealed { escrow with status := .rejected }))

def setAppeal (borrower : Address) (appeal : SlashEscrowAppealRecord) : Contract Slashing Unit :=
  alter fun x => { x with slashEscrowAppeal := update x.slashEscrowAppeal borrower (some appeal) }

/-- The appeal with the stake added to the side voted for. -/
def addAppealVote (appeal : SlashEscrowAppealRecord) (approve : Bool) (stake : Int) (vouchers : List Address) :
    Contract Slashing SlashEscrowAppealRecord := do
  if approve = true then do
    let approveStake ← i128 (.error .arithmeticError) (appeal.approveStake + stake)
    return { appeal with approveStake, voters := appeal.voters ++ vouchers }
  else do
    let rejectStake ← i128 (.error .arithmeticError) (appeal.rejectStake + stake)
    return { appeal with rejectStake, voters := appeal.voters ++ vouchers }

def voteAppeal (voter borrower : Address) (approve : Bool) : Contract Store Unit := do
  requireAuth voter
  requireNotPaused
  let ctx ← ask
  let escrow ← orFail (← appealedEscrow borrower) (.error .appealNotFound)
  require (ctx.now < escrow.releaseTimestamp) (.error .escrowExpired)
  require (escrow.status = .pending) (.error .invalidStateTransition)
  let vouches ← look (·.vault.vouching.vouchesOf borrower)
  let totalStake ← sumI128 .arithmetic 0 (vouches.map (·.stake))
  let appeal ← orFail (← look (·.slashing.slashEscrowAppeal borrower)) (.error .appealNotFound)
  let (stake, vouchers) ← appealStake voter appeal.voters (0, []) vouches
  require (stake ≠ 0) (.error .voucherNotFound)
  let appeal ← addAppealVote appeal approve stake vouchers
  let approved ← appealApproved appeal totalStake
  setAppeal borrower appeal
  if approved = true then finalizeAppealInternal borrower else return ()

def finalizeAppeal (borrower : Address) : Contract Store Unit := do
  requireNotPaused
  let ctx ← ask
  let escrow ← orFail (← appealedEscrow borrower) (.error .appealNotFound)
  require (escrow.releaseTimestamp ≤ ctx.now ∨ escrow.status ≠ .pending) (.error .escrowExpired)
  finalizeAppealInternal borrower

end QuorumCredit
