import QuorumCredit.Vouch
/-!
# Moving vouches

The operations of `vouch.rs` that add or move records beside `vouch` itself:
vouching for several borrowers at once, taking part of a stake out during a
loan, and handing a record, or part of one, to another voucher or another
borrower.
-/

open Host Function

namespace QuorumCredit

/-! ## Vouching in a batch -/

/-- The checks of `validate_vouch` after the borrower's defaults are marked. -/
def admitVouch (cfg : VouchConfig) (voucher borrower : Address) (stake : Int) (token : Address)
    (chainId : Option Nat) : Contract Store (List VouchRecord) := do
  validateVoucher cfg voucher borrower stake token chainId
  let vouches ← requireRoom cfg voucher borrower token
  let book ← look (·.book)
  require (book.hasActiveLoan borrower = false) (.error .activeLoanExists)
  let balance ← look (·.vault.bank.balance token voucher)
  require (stake ≤ balance) (.error .insufficientVoucherBalance)
  return vouches

theorem validateVouch_eq (cfg : VouchConfig) (voucher borrower : Address) (stake : Int) (token : Address)
    (chainId : Option Nat) :
    validateVouch cfg voucher borrower stake token chainId = (do
      validateBorrower voucher borrower stake
      let _ ← checkAllDefaultsForBorrower borrower
      admitVouch cfg voucher borrower stake token chainId) := rfl

/-- `validate_vouch` where its error is caught: the defaults it marked stay marked. -/
def tryValidateVouch (cfg : VouchConfig) (voucher borrower : Address) (stake : Int) (token : Address)
    (chainId : Option Nat) : Contract Store (Except ContractError (List VouchRecord)) := do
  match ← attempt Failure.returned (liftM (validateBorrower voucher borrower stake) : Contract Store Unit) with
  | .error e => return .error e
  | .ok _ => do
    let _ ← checkAllDefaultsForBorrower borrower
    attempt Failure.returned (admitVouch cfg voucher borrower stake token chainId)

/-- One entry of the batch. The vouches are read anew, so an earlier entry for the same borrower is seen. -/
def batchEntry (cfg : VouchConfig) (voucher token : Address) (chainId : Option Nat) (borrower : Address) (stake : Int) :
    Contract Store BatchVouchResult := do
  match ← tryValidateVouch cfg voucher borrower stake token chainId with
  | .error e => return { borrower, stake, success := false, error := some e }
  | .ok _ => do
    let vouches ← look (·.vault.vouching.vouchesOf borrower)
    match ← attempt Failure.returned
        (liftM (commitVouch voucher borrower stake token vouches chainId) : Contract Store Unit) with
    | .ok _ => return { borrower, stake, success := true, error := none }
    | .error e => return { borrower, stake, success := false, error := some e }

def batchEntries (cfg : VouchConfig) (voucher token : Address) (chainId : Option Nat)
    (results : List BatchVouchResult) :
    List (Address × Int) → Contract Store (List BatchVouchResult)
  | [] => return results
  | (borrower, stake) :: rest => do
    let result ← batchEntry cfg voucher token chainId borrower stake
    batchEntries cfg voucher token chainId (results ++ [result]) rest

def batchVouch (voucher : Address) (borrowers : List Address) (stakes : List Int) (token : Address)
    (chainId : Option Nat) : Contract Store (List BatchVouchResult) := do
  requireAuth voucher
  requireNotThawing
  let ctx ← ask
  require (borrowers ≠ [] ∧ borrowers.length = stakes.length) (.error .insufficientFunds)
  requireAllowedToken token
  batchEntries ctx.vouchConfig voucher token chainId [] (borrowers.zip stakes)

/-! ## Partial withdrawals -/

/-- `distribute_penalty`: the penalty, shared by stake among the vouchers who stay. -/
def distributePenalty (token withdrawing : Address) (penalty : Int) (vouches : List VouchRecord) :
    Contract Ledger Unit := do
  if penalty ≤ 0 then return ()
  else do
    let remaining := vouches.filter fun v => v.voucher ≠ withdrawing
    let totalStake ← sumI128 .arithmetic 0 (remaining.map (·.stake))
    if totalStake ≤ 0 then return ()
    else payFeeShares token penalty totalStake remaining

/-- Takes half of a stake out during an active loan, less a penalty for the
other vouchers; without one, the withdrawal is queued. -/
def partialWithdraw (voucher borrower : Address) : Contract Store Unit := do
  requireAuth voucher
  requireNotThawing
  let v ← requireVouch voucher borrower
  let vouches ← look (·.vault.vouching.vouchesOf borrower)
  let book ← look (·.book)
  if book.hasActiveLoan borrower = false then queueWithdrawalInternal voucher borrower v.token true 0
  else do
    let half ← i128 (.error .arithmeticError) (v.stake * partialWithdrawalMaxBps)
    let maxWithdraw := half.tdiv bpsDenominator
    require (0 < maxWithdraw) (.error .insufficientFunds)
    let product ← i128 (.error .arithmeticError) (maxWithdraw * partialWithdrawalPenaltyBps)
    let penalty := product.tdiv bpsDenominator
    let netPayout ← i128 (.error .arithmeticError) (maxWithdraw - penalty)
    requireAllowedToken v.token
    let stake ← i128 (.error .arithmeticError) (v.stake - maxWithdraw)
    let updated := setStake voucher stake vouches
    setVouches borrower updated
    pay v.token voucher netPayout
    distributePenalty v.token voucher penalty updated

/-! ## Handing a record on -/

/-- The list with the first record of `src` in the name of `dst`: `vouches.set(idx, updated)`. -/
def setVoucher (src dst : Address) : List VouchRecord → List VouchRecord
  | [] => []
  | v :: vs => if v.voucher = src then { v with voucher := dst } :: vs else v :: setVoucher src dst vs

namespace Vouching

/-- The vouchers `voucher` has vouched for, without the first entry of `borrower`. -/
def dropHistory (x : Vouching) (voucher borrower : Address) : Vouching :=
  { x with voucherHistory := update x.voucherHistory voucher ((x.voucherHistory voucher).erase borrower) }

def pushHistory (x : Vouching) (voucher borrower : Address) : Vouching :=
  { x with voucherHistory := update x.voucherHistory voucher (x.voucherHistory voucher ++ [borrower]) }

/-- `pushHistory`, unless the borrower is there. -/
def noteHistory (x : Vouching) (voucher borrower : Address) : Vouching :=
  if borrower ∈ x.voucherHistory voucher then x else x.pushHistory voucher borrower

/-- The history entry goes with the voucher's last record. -/
def releaseHistory (x : Vouching) (voucher borrower : Address) (vouches : List VouchRecord) : Vouching :=
  if vouches.any fun v => v.voucher = voucher then x else x.dropHistory voucher borrower

end Vouching

def recordTransfer (src dst borrower token : Address) (vouches : List VouchRecord) : Contract Vouching Unit :=
  alter fun x =>
    (((x.setVouches borrower vouches).invalidateWeightedStakeCache borrower token).releaseHistory src borrower
      vouches).pushHistory dst borrower

def transferVouch (src dst borrower : Address) : Contract Store Unit := do
  requireAuth src
  requireNotThawing
  require (src ≠ dst) (.error .invalidAmount)
  let v ← requireVouch src borrower
  let vouches ← look (·.vault.vouching.vouchesOf borrower)
  require (∀ u ∈ vouches, ¬ (u.voucher = dst ∧ u.token = v.token)) (.error .duplicateVouch)
  let book ← look (·.book)
  require (book.hasActiveLoan borrower = false) (.error .activeLoanExists)
  recordTransfer src dst borrower v.token (setVoucher src dst vouches)

def recordSplit (borrower token : Address) (split : VouchSplitRecord) (vouches : List VouchRecord) :
    Contract Vouching Unit :=
  alter fun x =>
    { ((x.setVouches borrower vouches).invalidateWeightedStakeCache borrower token).noteHistory split.childVoucher
        borrower with
      vouchSplitHistory := update x.vouchSplitHistory borrower (x.vouchSplitHistory borrower ++ [split]) }

/-- Takes `amountToSplit` off the voucher's record for a new record of `newVoucher`. -/
def splitVouch (voucher borrower newVoucher : Address) (amountToSplit : Int) : Contract Store Address := do
  requireAuth voucher
  requireNotThawing
  requirePositiveAmount amountToSplit
  require (voucher ≠ newVoucher) (.error .invalidAmount)
  let v ← requireVouch voucher borrower
  require (amountToSplit < v.stake) (.error .insufficientFunds)
  let remaining ← i128 (.error .arithmeticError) (v.stake - amountToSplit)
  require (minSplitStake ≤ remaining ∧ minSplitStake ≤ amountToSplit) (.error .splitBelowMinimum)
  let book ← look (·.book)
  require (book.hasActiveLoan borrower = false) (.error .activeLoanExists)
  let vouches ← look (·.vault.vouching.vouchesOf borrower)
  require (∀ u ∈ vouches, ¬ (u.voucher = newVoucher ∧ u.token = v.token)) (.error .duplicateVouch)
  let ctx ← ask
  let record : VouchRecord :=
    { v with voucher := newVoucher, stake := amountToSplit, vouchTimestamp := ctx.now, delegate := none }
  let split : VouchSplitRecord :=
    { parentVoucher := voucher, childVoucher := newVoucher, borrower, amount := amountToSplit, splitAt := ctx.now }
  recordSplit borrower v.token split (setStake voucher remaining vouches ++ [record])
  return newVoucher

/-- Rotating at least a quarter after the last time, or for the first time, earns the bonus. -/
def rotationBonus (now : Nat) (lastRotation : Option Nat) : Nat :=
  match lastRotation with
  | some last => if rotationBonusIntervalSecs ≤ now - last then rotationBonusRate else 0
  | none => rotationBonusRate

def requireRotationCooldown (lastRotation : Option Nat) : Contract Vouching Unit := do
  let ctx ← ask
  match lastRotation with
  | none => return ()
  | some last => do
    let cooldownEnd ← u64 .arithmetic (last + rotationCooldownSecs)
    require (cooldownEnd ≤ ctx.now) (.error .rotationCooldownActive)

/-- Moves `record` from the old borrower's list, of which `rest` is left, to the new borrower's. -/
def moveRecord (record : VouchRecord) (oldBorrower newBorrower : Address) (rest newVouches : List VouchRecord)
    (lastRotation : Option Nat) : Contract Vouching Unit := do
  let ctx ← ask
  let rotated := { record with vouchTimestamp := ctx.now }
  alter fun x =>
    ((x.setVouches oldBorrower rest).invalidateWeightedStakeCache oldBorrower record.token).setVouches newBorrower
      (newVouches ++ [rotated])
  alter fun x => x.invalidateWeightedStakeCache newBorrower record.token
  alter fun x => (x.releaseHistory record.voucher oldBorrower rest).noteHistory record.voucher newBorrower
  alter fun x =>
    { x with
      rotationBonusBps := update x.rotationBonusBps record.voucher (rotationBonus ctx.now lastRotation)
      lastRotationTimestamp := update x.lastRotationTimestamp record.voucher (some ctx.now)
      rotationCount := update x.rotationCount record.voucher (x.rotationCount record.voucher + 1) }

/-- `rotate_to_new_borrower`: the active loan that blocks it is the old borrower's. -/
def rotateToNewBorrower (voucher oldBorrower newBorrower : Address) : Contract Store Unit := do
  requireAuth voucher
  requireNotThawing
  require (oldBorrower ≠ newBorrower) (.error .invalidAmount)
  let lastRotation ← look (·.vault.vouching.lastRotationTimestamp voucher)
  requireRotationCooldown lastRotation
  let v ← requireVouch voucher oldBorrower
  let oldVouches ← look (·.vault.vouching.vouchesOf oldBorrower)
  let book ← look (·.book)
  require (book.hasActiveLoan oldBorrower = false) (.error .activeLoanExists)
  let newVouches ← look (·.vault.vouching.vouchesOf newBorrower)
  require (∀ u ∈ newVouches, ¬ (u.voucher = voucher ∧ u.token = v.token)) (.error .duplicateVouch)
  moveRecord v oldBorrower newBorrower (removeVouch voucher oldVouches) newVouches lastRotation

end QuorumCredit
