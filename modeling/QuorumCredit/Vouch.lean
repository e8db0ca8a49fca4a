import QuorumCredit.Helpers
/-!
# Vouches and the withdrawal queue

`vouch.rs`: staking behind a borrower, changing and withdrawing a stake, and the
queue that holds withdrawals back while the borrower has an active loan. Records
are looked up by voucher alone, so the first record of a voucher is the one an
operation works on, whatever its token.
-/

open Host Function

namespace QuorumCredit

/-! ## Lists of records -/

/-- The first record of `voucher`. -/
def findVouch (voucher : Address) (vouches : List VouchRecord) : Option VouchRecord :=
  vouches.find? fun v => v.voucher = voucher

/-- The list without the first record of `voucher`: `vouches.remove(idx)`. -/
def removeVouch (voucher : Address) : List VouchRecord → List VouchRecord
  | [] => []
  | v :: vs => if v.voucher = voucher then vs else v :: removeVouch voucher vs

/-- The list with the stake of the first record of `voucher` set: `vouches.set(idx, updated)`. -/
def setStake (voucher : Address) (stake : Int) : List VouchRecord → List VouchRecord
  | [] => []
  | v :: vs => if v.voucher = voucher then { v with stake } :: vs else v :: setStake voucher stake vs

namespace Vouching

/-- `get(Vouches(borrower)).unwrap_or(Vec::new())`. -/
def vouchesOf (x : Vouching) (borrower : Address) : List VouchRecord :=
  (x.vouches borrower).getD []

def setVouches (x : Vouching) (borrower : Address) (vouches : List VouchRecord) : Vouching :=
  { x with vouches := update x.vouches borrower (some vouches) }

def removeVouches (x : Vouching) (borrower : Address) : Vouching :=
  { x with vouches := update x.vouches borrower none }

def setQueue (x : Vouching) (borrower : Address) (queue : List QueuedWithdrawal) : Vouching :=
  { x with withdrawalQueue := update x.withdrawalQueue borrower queue }

def invalidateWeightedStakeCache (x : Vouching) (borrower token : Address) : Vouching :=
  { x with
    weightedStakeCache := update x.weightedStakeCache borrower (update (x.weightedStakeCache borrower) token none) }

def invalidateYieldCache (x : Vouching) (borrower voucher : Address) : Vouching :=
  { x with yieldCache := update x.yieldCache borrower (update (x.yieldCache borrower) voucher none) }

/-- The voucher's statistics, fresh ones if there are none. -/
def statsOf (x : Vouching) (voucher : Address) : VoucherStats :=
  (x.voucherStats voucher).getD .fresh

def setStats (x : Vouching) (voucher : Address) (stats : VoucherStats) : Vouching :=
  { x with voucherStats := update x.voucherStats voucher (some stats) }

end Vouching

/-! ## Reputation weight -/

/-- The loop of `integer_sqrt_u64`. -/
def integerSqrtLoop (n x y : Nat) : Nat :=
  if y < x then integerSqrtLoop n y ((y + n / y) / 2) else x
termination_by x

/-- `integer_sqrt_u64`, for an argument its first `x + 1` does not overflow on. -/
def integerSqrtU64 (n : Nat) : Nat :=
  if n = 0 then 0 else integerSqrtLoop n n ((n + 1) / 2)

/-- The yield that counts towards reputation: all of it from the floor on, half below. -/
def effectiveYield (totalYieldEarned : Int) : Int :=
  max 0 <|
    if sybilMinStakeForRep ≤ totalYieldEarned then totalYieldEarned
    else if 0 < totalYieldEarned then
      ((totalYieldEarned * sybilMinStakeForRep).tdiv 2).tdiv sybilMinStakeForRep
    else 0

/-- `(effective_yield / 1_000) as u64`. -/
def stakeTimeUnits (stats : VoucherStats) : Nat :=
  ((effectiveYield stats.totalYieldEarned).tdiv 1000).toNat % 2 ^ 64

/-- The weight in basis points, from the voucher's statistics. -/
def reputationWeight (stats : VoucherStats) : Int :=
  if effectiveYield stats.totalYieldEarned = 0 then bpsDenominator
  else
    let capped := min (integerSqrtU64 (stakeTimeUnits stats)) sybilRepSaturation
    let weightBps := min ((capped : Int) * 10000 / sybilRepSaturation) 10000
    let penaltyBps :=
      if 0 < stats.totalVouchesSlashed then min ((stats.totalVouchesSlashed : Int) * weightBps / 5) weightBps else 0
    bpsDenominator + (weightBps - penaltyBps)

def vouchReputationWeight (voucher : Address) : Contract Vouching Int := do
  let stats ← look (·.statsOf voucher)
  -- `x + 1` in `integer_sqrt_u64` traps on the largest argument
  require (effectiveYield stats.totalYieldEarned = 0 ∨ stakeTimeUnits stats ≠ u64Max) .arithmetic
  return reputationWeight stats

/-- `v.stake * weight / BPS_DENOMINATOR`. -/
def weightedStake (v : VouchRecord) : Contract Vouching Int := do
  let weight ← vouchReputationWeight v.voucher
  let product ← i128 .arithmetic (v.stake * weight)
  return product.tdiv bpsDenominator

/-- The reputation-weighted stakes of the records in `token`, summed from `acc`. -/
def totalWeightedStake (token : Address) (acc : Int) : List VouchRecord → Contract Vouching Int
  | [] => return acc
  | v :: vs =>
    if v.token = token then do
      let stake ← weightedStake v
      let acc ← i128 .arithmetic (acc + stake)
      totalWeightedStake token acc vs
    else totalWeightedStake token acc vs

def totalVouchedWeighted (borrower token : Address) : Contract Vouching Int := do
  let vouches ← look (·.vouchesOf borrower)
  totalWeightedStake token 0 vouches

def computeAndCacheWeightedStake (borrower token : Address) : Contract Vouching Int := do
  let total ← totalVouchedWeighted borrower token
  alter fun x =>
    { x with
      weightedStakeCache :=
        update x.weightedStakeCache borrower (update (x.weightedStakeCache borrower) token (some total)) }
  return total

def getCachedWeightedStake (borrower token : Address) : Contract Vouching Int := do
  match ← look (·.weightedStakeCache borrower token) with
  | some cached => return cached
  | none => computeAndCacheWeightedStake borrower token

/-! ## Vouching -/

/-- What `validate_vouch` checks before it looks at the borrower's loans. -/
def validateBorrower (voucher borrower : Address) (stake : Int) : Contract Vouching Unit := do
  let ctx ← ask
  requirePositiveAmount stake
  require (voucher ≠ borrower) (.error .selfVouchNotAllowed)
  require (ctx.blacklisted borrower = false) (.error .blacklisted)

def requireMinStake (cfg : VouchConfig) (borrower : Address) (stake : Int) : Contract Vouching Unit := do
  let ctx ← ask
  if 0 < cfg.minStake ∧ stake < cfg.minStake then
    match ctx.tierMinStakeReductionBps borrower with
    | none => fail (.error .minStakeNotMet)
    | some reductionBps => do
      let product ← i128 .arithmetic (cfg.minStake * reductionBps)
      require (cfg.minStake - max (product.tdiv 10000) 0 ≤ stake) (.error .minStakeNotMet)
  else return ()

def requireVouchCooldown (cfg : VouchConfig) (voucher borrower : Address) : Contract Vouching Unit := do
  let ctx ← ask
  if 0 < cfg.vouchCooldownSecs then do
    let last ← look (·.lastVouchTimestamp voucher)
    if 0 < last then do
      let cooldownEnd ← u64 .arithmetic (last + cfg.vouchCooldownSecs)
      require (cooldownEnd ≤ ctx.now ∨ ctx.cooldownBypass voucher borrower = true) (.error .vouchCooldownActive)
    else return ()
  else return ()

/-- `validate_bridge`, for a vouch from another chain. -/
def validateBridge (chainId : Option Nat) : Contract Vouching Unit := do
  let ctx ← ask
  require (∀ cid, chainId = some cid → ctx.activeBridge cid = true) (.error .invalidChain)

/-- What `validate_vouch` checks of the voucher, the token and the stake. -/
def validateVoucher (cfg : VouchConfig) (voucher borrower : Address) (stake : Int) (token : Address)
    (chainId : Option Nat) : Contract Vouching Unit := do
  let ctx ← ask
  require (cfg.whitelistEnabled = false ∨ ctx.voucherWhitelist voucher = true) (.error .voucherNotWhitelisted)
  requireAllowedToken token
  validateBridge chainId
  requireMinStake cfg borrower stake
  requireVouchCooldown cfg voucher borrower

/-- The borrower's vouches, if the voucher has none in this token and there is room for one more. -/
def requireRoom (cfg : VouchConfig) (voucher borrower token : Address) : Contract Vouching (List VouchRecord) := do
  let vouches ← look (·.vouchesOf borrower)
  require (∀ v ∈ vouches, ¬ (v.voucher = voucher ∧ v.token = token)) (.error .duplicateVouch)
  require (vouches.length < cfg.maxVouchersPerBorrower) (.error .maxVouchersPerBorrowerExceeded)
  return vouches

def validateVouch (cfg : VouchConfig) (voucher borrower : Address) (stake : Int) (token : Address)
    (chainId : Option Nat) : Contract Store (List VouchRecord) := do
  validateBorrower voucher borrower stake
  let _ ← checkAllDefaultsForBorrower borrower
  validateVoucher cfg voucher borrower stake token chainId
  let vouches ← requireRoom cfg voucher borrower token
  let book ← look (·.book)
  require (book.hasActiveLoan borrower = false) (.error .activeLoanExists)
  let balance ← look (·.vault.bank.balance token voucher)
  require (stake ≤ balance) (.error .insufficientVoucherBalance)
  return vouches

/-- Takes `amount` from `src` and checks that it arrived. -/
def receive (token src : Address) (amount : Int) : Contract Ledger Unit := do
  let ctx ← ask
  let before ← look (·.balance token ctx.contract)
  collect token src amount
  let after ← look (·.balance token ctx.contract)
  let received ← i128 (.error .stakeOverflow) (after - before)
  require (received = amount) (.error .insufficientFunds)

def commitVouch (voucher borrower : Address) (stake : Int) (token : Address) (vouches : List VouchRecord)
    (chainId : Option Nat) : Contract Vault Unit := do
  let ctx ← ask
  receive token voucher stake
  let record : VouchRecord :=
    { voucher, stake, vouchTimestamp := ctx.now, token, expiryTimestamp := none, delegate := none, chainId }
  alter fun x : Vault =>
    { x with vouching :=
      { (x.vouching.setVouches borrower (vouches ++ [record])).invalidateWeightedStakeCache borrower token with
        voucherHistory := update x.vouching.voucherHistory voucher (x.vouching.voucherHistory voucher ++ [borrower])
        voucherRegistry :=
          if voucher ∈ x.vouching.voucherRegistry then x.vouching.voucherRegistry
          else x.vouching.voucherRegistry ++ [voucher]
        lastVouchTimestamp := update x.vouching.lastVouchTimestamp voucher ctx.now } }

def doVouch (cfg : VouchConfig) (voucher borrower : Address) (stake : Int) (token : Address)
    (chainId : Option Nat) : Contract Store Unit := do
  checkRateLimit voucher
  registerBorrowerIfNeeded borrower
  let vouches ← validateVouch cfg voucher borrower stake token chainId
  commitVouch voucher borrower stake token vouches chainId

/-- Chain 0 is the native one. -/
def chainOf (chainId : Nat) : Option Nat :=
  if chainId = 0 then none else some chainId

/-- `vouch_with_chain`. -/
def vouch (voucher borrower : Address) (stake : Int) (token : Address) (chainId : Nat) : Contract Store Unit := do
  requireAuth voucher
  requireNotThawing
  let ctx ← ask
  validateBridge (chainOf chainId)
  doVouch ctx.vouchConfig voucher borrower stake token (chainOf chainId)

/-! ## The withdrawal queue -/

/-- The queue with `entry` before the first entry of a lower fee, or of the same
fee and a later request: highest fee first, then first come first served. -/
def insertEntry (entry : QueuedWithdrawal) : List QueuedWithdrawal → List QueuedWithdrawal
  | [] => [entry]
  | e :: rest =>
    if e.priorityFee < entry.priorityFee ∨ (e.priorityFee = entry.priorityFee ∧ entry.requestedAt < e.requestedAt)
    then entry :: e :: rest
    else e :: insertEntry entry rest

def queueWithdrawalInternal (voucher borrower token : Address) (isPartial : Bool) (priorityFee : Int) :
    Contract Vouching Unit := do
  let ctx ← ask
  let queue ← look (·.withdrawalQueue borrower)
  require (∀ q ∈ queue, q.voucher ≠ voucher) (.error .withdrawalAlreadyQueued)
  require (queue.length < ctx.maxWithdrawalQueueSize) (.error .withdrawalQueueFull)
  let entry : QueuedWithdrawal := { voucher, token, requestedAt := ctx.now, isPartial, priorityFee }
  alter (·.setQueue borrower (insertEntry entry queue))

/-- One queued entry: the voucher's first record is paid in full and removed. A
record in a token no longer allowed is removed unpaid. -/
def processEntry (queued : QueuedWithdrawal) (vouches : List VouchRecord) : Contract Ledger (List VouchRecord) :=
  match findVouch queued.voucher vouches with
  | none => return vouches
  | some v => do
    let ctx ← ask
    if v.token = ctx.config.token ∨ v.token ∈ ctx.config.allowedTokens then do
      pay v.token v.voucher v.stake
      return removeVouch queued.voucher vouches
    else return removeVouch queued.voucher vouches

def processEntries (vouches : List VouchRecord) : List QueuedWithdrawal → Contract Ledger (List VouchRecord)
  | [] => return vouches
  | queued :: rest => do
    let vouches ← processEntry queued vouches
    processEntries vouches rest

/-- The priority fees, shared among `vouches` by stake. -/
def payFeeShares (token : Address) (fees totalStake : Int) : List VouchRecord → Contract Ledger Unit
  | [] => return ()
  | v :: vs => do
    let product ← i128 .arithmetic (fees * v.stake)
    let share ← divI128 .arithmetic product totalStake
    if 0 < share then do
      pay token v.voucher share
      payFeeShares token fees totalStake vs
    else payFeeShares token fees totalStake vs

def distributeFees (queue : List QueuedWithdrawal) (fees : Int) (vouches : List VouchRecord) :
    Contract Ledger Unit := do
  let ctx ← ask
  if 0 < fees then do
    let remaining ← sumI128 .arithmetic 0 (vouches.map (·.stake))
    match queue with
    | [] => return ()
    | first :: _ =>
      if 0 < remaining ∧ (first.token = ctx.config.token ∨ first.token ∈ ctx.config.allowedTokens)
      then payFeeShares first.token fees remaining vouches
      else return ()
  else return ()

/-- `process_withdrawal_queue`, called when a loan is repaid or slashed. -/
def processWithdrawalQueue (borrower : Address) : Contract Vault Unit := do
  let queue ← look (·.vouching.withdrawalQueue borrower)
  if queue = [] then return ()
  else do
    let vouches ← look (·.vouching.vouchesOf borrower)
    let fees ← sumI128 .arithmetic 0 (queue.map (·.priorityFee))
    let remaining ← processEntries vouches queue
    distributeFees queue fees remaining
    alter fun x : Vault => { x with vouching := (x.vouching.setVouches borrower remaining).setQueue borrower [] }

/-- The loop of `process_withdrawal_batch`, at index `i`: entries before
`processCount` are counted and go, the others stay in the queue. -/
def batchLoop (processCount i : Nat) : List QueuedWithdrawal → Nat × List QueuedWithdrawal
  | [] => (0, [])
  | queued :: queue =>
    let (processed, remaining) := batchLoop processCount (i + 1) queue
    if i < processCount then (processed + 1, remaining) else (processed, queued :: remaining)

/-- `process_withdrawal_batch`: drops the first `count` entries and returns how many there were. -/
def processWithdrawalBatch (borrower : Address) (count : Nat) : Contract Vouching Nat := do
  if count = 0 then return 0
  else
    let queue ← look (·.withdrawalQueue borrower)
    if queue = [] then return 0
    else
      let processCount := if queue.length < count then queue.length else count
      let (processed, remaining) := batchLoop processCount 0 queue
      alter (·.setQueue borrower remaining)
      return processed

/-! ## Changing and withdrawing a stake -/

/-- The voucher's first record among the borrower's vouches. -/
def requireVouch (voucher borrower : Address) : Contract Vouching VouchRecord := do
  let vouches ← orFail (← look (·.vouches borrower)) (.error .noVouchesForBorrower)
  orFail (findVouch voucher vouches) (.error .voucherNotFound)

/-- Stores the changed records and drops what was cached from the old ones. -/
def saveVouches (voucher borrower token : Address) (vouches : List VouchRecord) : Contract Vouching Unit :=
  alter fun x =>
    ((x.setVouches borrower vouches).invalidateWeightedStakeCache borrower token).invalidateYieldCache borrower voucher

def increaseStake (voucher borrower : Address) (additional : Int) : Contract Store Unit := do
  requireAuth voucher
  requireNotThawing
  requirePositiveAmount additional
  let v ← requireVouch voucher borrower
  let book ← look (·.book)
  require (book.hasActiveLoan borrower = false) (.error .activeLoanExists)
  requireAllowedToken v.token
  receive v.token voucher additional
  let vouches ← look (·.vault.vouching.vouchesOf borrower)
  let stake ← i128 (.error .stakeOverflow) (v.stake + additional)
  saveVouches voucher borrower v.token (setStake voucher stake vouches)

/-- The records after taking `amount` from the stake of `v`, which goes when nothing is left. -/
def reduceStake (v : VouchRecord) (amount : Int) (vouches : List VouchRecord) : List VouchRecord :=
  if amount = v.stake then removeVouch v.voucher vouches else setStake v.voucher (v.stake - amount) vouches

/-- Takes `amount` off the record and pays it, or, during an active loan, takes
it off the record and queues the withdrawal. -/
def decreaseStake (voucher borrower : Address) (amount : Int) : Contract Store Unit := do
  requireAuth voucher
  requireNotThawing
  requirePositiveAmount amount
  let v ← requireVouch voucher borrower
  -- with this guard the `checked_sub` of the amount cannot fail
  require (amount ≤ v.stake) (.error .insufficientFunds)
  let vouches ← look (·.vault.vouching.vouchesOf borrower)
  let book ← look (·.book)
  if book.hasActiveLoan borrower then do
    saveVouches voucher borrower v.token (reduceStake v amount vouches)
    queueWithdrawalInternal voucher borrower v.token false 0
  else do
    requireAllowedToken v.token
    saveVouches voucher borrower v.token (reduceStake v amount vouches)
    pay v.token voucher amount

/-- Removes the record and pays its stake, or, during an active loan, removes
the record and queues the withdrawal. -/
def withdrawVouch (voucher borrower : Address) : Contract Store Unit := do
  requireAuth voucher
  requireReadsAllowed
  let v ← requireVouch voucher borrower
  let vouches ← look (·.vault.vouching.vouchesOf borrower)
  let book ← look (·.book)
  if book.hasActiveLoan borrower then do
    saveVouches voucher borrower v.token (removeVouch voucher vouches)
    queueWithdrawalInternal voucher borrower v.token false 0
  else do
    requireAllowedToken v.token
    saveVouches voucher borrower v.token (removeVouch voucher vouches)
    pay v.token voucher v.stake

/-- Stores the changed records. -/
def setVouches (borrower : Address) (vouches : List VouchRecord) : Contract Vouching Unit :=
  alter (·.setVouches borrower vouches)

/-- Collects the fee of a request that asks for priority. -/
def collectPriorityFee (token voucher : Address) (priorityFee : Int) : Contract Ledger Unit :=
  if 0 < priorityFee then do
    requireAllowedToken token
    collect token voucher priorityFee
  else return ()

/-- The fee is capped at a share of the voucher's own stake. -/
def requireFeeCap (stake priorityFee : Int) : Contract Ledger Unit := do
  let ctx ← ask
  if 0 < priorityFee then do
    let product ← i128 (.error .arithmeticError) (stake * ctx.config.maxPriorityFeeCapBps)
    require (priorityFee ≤ product.tdiv bpsDenominator) (.error .invalidAmount)
  else return ()

def requestWithdrawal (voucher borrower : Address) (priorityFee : Int) : Contract Store Unit := do
  requireAuth voucher
  requireNotThawing
  require (0 ≤ priorityFee) (.error .invalidAmount)
  let v ← requireVouch voucher borrower
  requireFeeCap v.stake priorityFee
  let vouches ← look (·.vault.vouching.vouchesOf borrower)
  let book ← look (·.book)
  if book.hasActiveLoan borrower then do
    collectPriorityFee v.token voucher priorityFee
    queueWithdrawalInternal voucher borrower v.token false priorityFee
  else do
    requireAllowedToken v.token
    setVouches borrower (removeVouch voucher vouches)
    pay v.token voucher v.stake

end QuorumCredit
