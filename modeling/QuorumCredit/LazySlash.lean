import QuorumCredit.AnyToken
import QuorumCredit.Settling
import QuorumCredit.Host.Component
/-!
# The lazy slash queue

`lazy_slash.rs`: slashes are queued by the administration and executed in batches,
in the order they were queued. A batch calls `execute_slash` for every entry and
goes on after an error that is returned; what the slash did before the error then
stays. A panic is not caught, and takes the whole batch down with it.
-/

open Host Function

namespace QuorumCredit

/-! ## Slashes whose error may be caught -/

/-- The share of a stake that is slashed, the rest of it, and the new total. -/
def seizure (bps total : Int) (v : VouchRecord) : Contract Vault (Int × Int × Int) := do
  let product ← i128 (.error .arithmeticError) (v.stake * bps)
  let slashAmount := product.tdiv bpsDenominator
  let remaining ← i128 (.error .arithmeticError) (v.stake - slashAmount)
  let total ← i128 (.error .arithmeticError) (total + slashAmount)
  return (slashAmount, remaining, total)

/-- The rest of a stake goes back, and the voucher's statistics count the slash. -/
def settleSeizure (v : VouchRecord) (slashAmount remaining : Int) : Contract Vault Unit := do
  if 0 < remaining then pay v.token v.voucher remaining else pure ()
  addSlashed v.voucher slashAmount

/-- A stake in another token goes back in full, unless the token is the zero address. -/
def returnForeign (v : VouchRecord) : Contract Vault Unit := do
  let ctx ← ask
  if ctx.isZeroAddress v.token = false then pay v.token v.voucher v.stake else pure ()

/-- The loop of `execute_slash`, record by record. -/
def trySeizeStakes (loanToken : Address) (bps total : Int) (remaining : List VouchRecord) :
    List VouchRecord → Returning Vault (Int × List VouchRecord)
  | [] => return (total, remaining)
  | v :: vs =>
    if v.token ≠ loanToken then do
      returnForeign v
      trySeizeStakes loanToken bps total (remaining ++ [v]) vs
    else do
      let (slashAmount, rest, total) ← seizure bps total v
      settleSeizure v slashAmount rest
      trySeizeStakes loanToken bps total remaining vs

/-- When the borrower was last slashed, and the escrow of what was. -/
def escrowSlashed (borrower : Address) (totalSlashed : Int) : Contract Slashing Unit := do
  let ctx ← ask
  let release ← u64 .arithmetic (ctx.now + slashEscrowPeriod)
  alter fun x =>
    { x with
      lastSlashedAt := update x.lastSlashedAt borrower (some ctx.now)
      slashEscrow := update x.slashEscrow borrower (some (.slashed totalSlashed release)) }

/-- Stores the vouches that stay. -/
def keepVouches (borrower : Address) (remaining : List VouchRecord) : Contract Vouching Unit :=
  alter fun x => if remaining = [] then x.removeVouches borrower else x.setVouches borrower remaining

/-- The record of the slash, its audit entry and the monthly index. -/
def fileSlash (slashId : Nat) (loan : LoanRecord) (borrower : Address) (totalSlashed bps : Int) :
    Contract Slashing Unit := do
  let ctx ← ask
  let record : SlashRecord :=
    { slashId, borrower, loanId := loan.id, loanAmount := loan.amount, totalSlashed, slashTimestamp := ctx.now
      recoveryAmount := 0, reversalReason := none, reversed := false, effectiveSlashBps := bps }
  let month := ctx.now / monthlyPeriodSecs
  alter fun x =>
    { x with
      slashRecord := update x.slashRecord slashId (some record)
      slashAudit := update x.slashAudit borrower (some record)
      slashesByMonth := update x.slashesByMonth month (x.slashesByMonth month ++ [slashId]) }

/-- What `execute_slash` checks before its first write: the loan, and the rate it is slashed at. -/
def requireSlashed (borrower : Address) : Contract Store (LoanRecord × Int) := do
  let ctx ← ask
  requireSlashCooldown borrower
  let vouches ← look (·.vault.vouching.vouchesOf borrower)
  let book ← look (·.book)
  let loan ← orFail (book.getActiveLoanRecord borrower) (.error .noActiveLoan)
  require (loan.status ≠ .defaulted) (.panic .slashAlreadyExecuted)
  let _ ← sumI128 .arithmetic 0 (vouches.map (·.stake))
  return (loan, effectiveSlashBps ctx.config (book.defaultCount borrower))

/-- `execute_slash`, write by write in the order of the source. -/
def tryExecuteSlash (borrower : Address) : Returning Store Unit := do
  let (loan, bps) ← requireSlashed borrower
  let vouches ← (look (·.vault.vouching.vouchesOf borrower) : Contract Store (List VouchRecord))
  let (totalSlashed, remaining) ← Staged.within (trySeizeStakes loan.tokenAddress bps 0 [] vouches)
  escrowSlashed borrower totalSlashed
  onBook (·.settleDefaulted borrower loan)
  keepVouches borrower remaining
  let slashId ← nextSlashId
  fileSlash slashId loan borrower totalSlashed bps
  processWithdrawalQueue borrower

/-! ## What a slash needs -/

/-- The slashed share of a stake. -/
def seizedShare (bps : Int) (v : VouchRecord) : Int := (v.stake * bps).tdiv bpsDenominator

/-- The figures of the slashed stakes fit, counted from `total` on. -/
structure SeizuresFit (bps total : Int) (vouches : List VouchRecord) : Prop where
  each : ∀ v ∈ vouches, FitsI128 (v.stake * bps) ∧ FitsI128 (v.stake - seizedShare bps v)
  sum : SumFits total (vouches.map (seizedShare bps))

/-- The vouchers' statistics can count the slash, one record after the other. -/
def Vouching.StrikesFit (x : Vouching) (bps : Int) : List VouchRecord → Prop
  | [] => True
  | v :: vs => FitsI128 ((x.statsOf v.voucher).totalSlashed + seizedShare bps v) ∧
      (x.strike v.voucher (seizedShare bps v)).StrikesFit bps vs

/-- The stakes behind a loan in `token` can be seized at rate `bps`. -/
structure Vault.CanSeize (x : Vault) (w : World) (token : Address) (bps : Int) (vouches : List VouchRecord) : Prop where
  strikes : x.vouching.StrikesFit bps (inToken token vouches)
  covered : x.bank.Covers (seizures w token bps vouches)

theorem seizuresFit_cons {bps total : Int} {v : VouchRecord} {vs : List VouchRecord} :
    SeizuresFit bps total (v :: vs) ↔ (FitsI128 (v.stake * bps) ∧ FitsI128 (v.stake - seizedShare bps v) ∧
      FitsI128 (total + seizedShare bps v)) ∧ SeizuresFit bps (total + seizedShare bps v) vs := by
  constructor
  · intro h
    obtain ⟨hone, hall⟩ := List.forall_mem_cons.1 h.each
    exact ⟨⟨hone.1, hone.2, h.sum.1⟩, hall, h.sum.2⟩
  · rintro ⟨⟨hproduct, hrest, htotal⟩, hall, hsum⟩
    exact ⟨List.forall_mem_cons.2 ⟨⟨hproduct, hrest⟩, hall⟩, htotal, hsum⟩

/-- The vault after one record is dealt with. -/
def Vault.afterRecord (x : Vault) (w : World) (token : Address) (bps : Int) (v : VouchRecord) : Vault :=
  { bank := x.bank.moves (seizures w token bps [v]), vouching := x.vouching.strikeAll bps (inToken token [v]) }

/-- The vault after all of them are. -/
def Vault.afterRecords (x : Vault) (w : World) (token : Address) (bps : Int) (vouches : List VouchRecord) : Vault :=
  { bank := x.bank.moves (seizures w token bps vouches), vouching := x.vouching.strikeAll bps (inToken token vouches) }

theorem canSeize_cons {x : Vault} {w : World} {token : Address} {bps : Int} {v : VouchRecord} {vs : List VouchRecord} :
    x.CanSeize w token bps (v :: vs) ↔
      x.CanSeize w token bps [v] ∧ (x.afterRecord w token bps v).CanSeize w token bps vs := by
  have hsplit : seizures w token bps (v :: vs) = seizures w token bps [v] ++ seizures w token bps vs :=
    List.filterMap_append (l := [v])
  have hstrikes : x.vouching.StrikesFit bps (inToken token (v :: vs)) ↔ x.vouching.StrikesFit bps (inToken token [v]) ∧
      (x.vouching.strikeAll bps (inToken token [v])).StrikesFit bps (inToken token vs) := by
    unfold inToken
    by_cases htoken : v.token = token
    · simp [htoken, Vouching.StrikesFit, Vouching.strikeAll, seizedShare]
    · simp [htoken, Vouching.StrikesFit, Vouching.strikeAll]
  constructor
  · rintro ⟨hall, hcovered⟩
    rw [hsplit, Bank.covers_append] at hcovered
    obtain ⟨hone, hrest⟩ := hstrikes.1 hall
    exact ⟨⟨hone, hcovered.1⟩, hrest, hcovered.2⟩
  · rintro ⟨hone, hrest⟩
    refine ⟨hstrikes.2 ⟨hone.strikes, hrest.strikes⟩, ?_⟩
    rw [hsplit, Bank.covers_append]
    exact ⟨hone.covered, hrest.covered⟩

section

variable {ctx : Context} {token : Address} {bps : Int} {v : VouchRecord}

theorem goes_returnForeign (bps : Int) (htoken : v.token ≠ token) (x : Vault) (Q : Unit → Vault → Prop) :
    Goes (returnForeign v) ctx x Q ↔
      x.CanSeize ctx.toWorld token bps [v] ∧ Q () (x.afterRecord ctx.toWorld token bps v) := by
  have hnone : inToken token [v] = [] := List.filter_cons_of_neg (by simpa using htoken)
  have hstrikes : x.vouching.StrikesFit bps (inToken token [v]) := by
    rw [hnone]
    trivial
  have hcan : x.CanSeize ctx.toWorld token bps [v] ↔ x.bank.Covers (seizures ctx.toWorld token bps [v]) :=
    ⟨fun h => h.covered, fun h => ⟨hstrikes, h⟩⟩
  rw [hcan, Vault.afterRecord, hnone]
  simp only [returnForeign, goes_bind, goes_ask, goes_ite, goes_pure, yields_parts, goes_zoom, goes_pay]
  by_cases hzero : ctx.isZeroAddress v.token = false
  · have hone : seizures ctx.toWorld token bps [v] = [ctx.toWorld.payment v.token v.voucher v.stake] := by
      simp only [seizures, List.filterMap_cons, List.filterMap_nil, htoken, if_false, hzero, if_true]
    simp only [hone, hzero, not_true, false_implies, and_true, forall_const, Bank.Covers, Bank.moves, World.payment]
    rfl
  · have hone : seizures ctx.toWorld token bps [v] = [] := List.filterMap_cons_none (by rw [if_neg htoken,
      if_neg hzero])
    simp [hone, hzero, Vouching.strikeAll]

theorem goes_settleSeizure (x : Vault) (Q : Unit → Vault → Prop) :
    Goes (settleSeizure v (seizedShare bps v) (v.stake - seizedShare bps v)) ctx x Q ↔
      x.CanSeize ctx.toWorld v.token bps [v] ∧ Q () (x.afterRecord ctx.toWorld v.token bps v) := by
  have hown : inToken v.token [v] = [v] := List.filter_cons_of_pos (by simp)
  have hcan : x.CanSeize ctx.toWorld v.token bps [v] ↔ x.bank.Covers (seizures ctx.toWorld v.token bps [v]) ∧
      FitsI128 ((x.vouching.statsOf v.voucher).totalSlashed + seizedShare bps v) := by
    constructor
    · rintro ⟨hstrikes, hcovered⟩
      rw [hown] at hstrikes
      exact ⟨hcovered, hstrikes.1⟩
    · rintro ⟨hcovered, hfits⟩
      refine ⟨?_, hcovered⟩
      rw [hown]
      exact ⟨hfits, trivial⟩
  rw [hcan, Vault.afterRecord, hown]
  simp only [settleSeizure, addSlashed, goes_bind, goes_look, goes_i128, goes_alter, goes_ite, yields_parts, goes_zoom,
    goes_pay]
  by_cases hpos : 0 < v.stake - seizedShare bps v
  · have hone : seizures ctx.toWorld v.token bps [v] =
        [ctx.toWorld.payment v.token v.voucher (v.stake - seizedShare bps v)] := by
      unfold seizedShare at hpos
      simp only [seizures, List.filterMap_cons, List.filterMap_nil, if_true, hpos]
      rfl
    simp only [hone, hpos, not_true, false_implies, and_true, forall_const, Bank.Covers, Bank.moves, World.payment,
      and_assoc]
    rfl
  · have hone : seizures ctx.toWorld v.token bps [v] = [] := by
      unfold seizedShare at hpos
      simp only [seizures, List.filterMap_cons, List.filterMap_nil, if_true, hpos, if_false]
    simp only [hone, hpos, not_false_iff, false_implies, true_and, forall_const, Bank.Covers, Bank.moves]
    rfl

theorem goes_seizure (total : Int) (x : Vault) (Q : Int × Int × Int → Vault → Prop) :
    Goes (seizure bps total v) ctx x Q ↔
      (FitsI128 (v.stake * bps) ∧ FitsI128 (v.stake - seizedShare bps v) ∧ FitsI128 (total + seizedShare bps v)) ∧
        Q (seizedShare bps v, v.stake - seizedShare bps v, total + seizedShare bps v) x := by
  simp only [seizure, goes_bind, goes_i128, goes_pure, and_assoc]
  rfl

theorem goes_seizeStake (x : Vault) (Q : Int → Vault → Prop) :
    Goes (seizeStake bps v) ctx x Q ↔ (FitsI128 (v.stake * bps) ∧ FitsI128 (v.stake - seizedShare bps v)) ∧
      x.CanSeize ctx.toWorld v.token bps [v] ∧ Q (seizedShare bps v) (x.afterRecord ctx.toWorld v.token bps v) := by
  rw [← goes_settleSeizure x fun _ => Q (seizedShare bps v)]
  simp only [seizeStake, settleSeizure, goes_bind, goes_i128, goes_ite, goes_pure, and_assoc]
  rfl

theorem afterRecords_cons (x : Vault) (w : World) (vs : List VouchRecord) :
    x.afterRecords w token bps (v :: vs) = (x.afterRecord w token bps v).afterRecords w token bps vs := by
  have hsplit : seizures w token bps (v :: vs) = seizures w token bps [v] ++ seizures w token bps vs :=
    List.filterMap_append (l := [v])
  unfold Vault.afterRecords Vault.afterRecord
  rw [hsplit, Bank.moves_append]
  unfold inToken
  by_cases htoken : v.token = token
  · simp [htoken, Vouching.strikeAll]
  · simp [htoken, Vouching.strikeAll]

/-- What the loop comes to, in the order of `seizeStakes` or in that of the source. -/
theorem goes_trySeizeStakes (total : Int) (remaining vouches : List VouchRecord) (x : Vault)
    (Q : Int × List VouchRecord → Vault → Prop) :
    Goes ((trySeizeStakes token bps total remaining vouches).settle .error) ctx x Q ↔
      SeizuresFit bps total (inToken token vouches) ∧ x.CanSeize ctx.toWorld token bps vouches ∧
        Q (total + ((inToken token vouches).map (seizedShare bps)).sum, remaining ++ foreign token vouches)
          (x.afterRecords ctx.toWorld token bps vouches) := by
  induction vouches generalizing total remaining x with
  | nil =>
    have hfits : SeizuresFit bps total [] := ⟨List.forall_mem_nil _, trivial⟩
    have hcan : x.CanSeize ctx.toWorld token bps [] := ⟨trivial, trivial⟩
    simp only [trySeizeStakes, Staged.settle_pure, goes_pure, inToken, foreign, List.filter_nil, hfits, hcan, true_and,
      List.map_nil, List.sum_nil, Int.add_zero, List.append_nil]
    rfl
  | cons v vs ih =>
    rw [canSeize_cons, afterRecords_cons, trySeizeStakes]
    split
    case isTrue htoken =>
      have hother : inToken token (v :: vs) = inToken token vs := List.filter_cons_of_neg (by simpa using htoken)
      have hforeign : foreign token (v :: vs) = v :: foreign token vs := List.filter_cons_of_pos (by simpa using htoken)
      have happend : remaining ++ v :: foreign token vs = remaining ++ [v] ++ foreign token vs := List.append_cons ..
      rw [hother, hforeign, happend]
      simp only [Staged.settle_bind, Staged.lift_eq_stage, Staged.settle_stage returned_error, lift_self, goes_bind,
        goes_returnForeign bps htoken, ih]
      tauto
    case isFalse htoken =>
      obtain rfl := not_not.1 htoken
      have hown : inToken v.token (v :: vs) = v :: inToken v.token vs := List.filter_cons_of_pos (by simp)
      have hforeign : foreign v.token (v :: vs) = foreign v.token vs := List.filter_cons_of_neg (by simp)
      rw [hown, hforeign, seizuresFit_cons, List.map_cons, List.sum_cons, ← Int.add_assoc]
      simp only [Staged.settle_bind, Staged.lift_eq_stage, Staged.settle_stage returned_error, lift_self, goes_bind,
        goes_seizure, goes_settleSeizure, ih]
      tauto

theorem goes_seizeStakes (total : Int) (remaining vouches : List VouchRecord) (x : Vault)
    (Q : Int × List VouchRecord → Vault → Prop) :
    Goes (seizeStakes token bps total remaining vouches) ctx x Q ↔
      Goes ((trySeizeStakes token bps total remaining vouches).settle .error) ctx x Q := by
  induction vouches generalizing total remaining x with
  | nil => rfl
  | cons v vs ih =>
    rw [trySeizeStakes, seizeStakes]
    split
    case isTrue htoken =>
      simp only [Staged.settle_bind, Staged.lift_eq_stage, Staged.settle_stage returned_error, lift_self, goes_bind,
        ← ih, returnForeign, goes_ask, goes_ite, goes_pure]
    case isFalse htoken =>
      simp only [Staged.settle_bind, Staged.lift_eq_stage, Staged.settle_stage returned_error, lift_self, goes_bind,
        ← ih, goes_seizure, goes_settleSeizure, goes_seizeStake, goes_i128]
      tauto

/-! ### The whole slash -/

/-- The last slash of `b` is too recent for another. -/
def Store.Cooling (s : Store) (w : World) (b : Address) : Prop :=
  ∃ last, s.slashing.lastSlashedAt b = some last ∧
    ¬ (w.config.slashCooldownSeconds = 0 ∨ w.config.slashCooldownSeconds ≤ w.now - last)

/-- The loan of `b` can be slashed to the end: no figure overflows, and the contract can pay what it gives back. -/
structure Store.CanSlash (s : Store) (w : World) (b : Address) (loan : LoanRecord) : Prop where
  unmarked : loan.status ≠ .defaulted
  stakes : SumFits 0 ((s.vault.vouching.vouchesOf b).map (·.stake))
  figures : SeizuresFit (slashRate w s.book b) 0 (inToken loan.tokenAddress (s.vault.vouching.vouchesOf b))
  seizable : s.vault.CanSeize w loan.tokenAddress (slashRate w s.book b) (s.vault.vouching.vouchesOf b)
  releasable : w.now + slashEscrowPeriod ≤ u64Max
  numbered : s.slashing.slashRecordCounter < u64Max
  drains : (s.vault.seized w loan.tokenAddress (slashRate w s.book b) b).CanDrain w b

theorem goes_requireSlashCooldown (b : Address) (s : Store) (Q : Unit → Store → Prop) :
    Goes (zoom (requireSlashCooldown b)) ctx s Q ↔ ¬ s.Cooling ctx.toWorld b ∧ Q () s := by
  simp only [goes_zoom, requireSlashCooldown, goes_bind, goes_ask, goes_look]
  change Goes _ ctx s.slashing _ ↔ _
  unfold Store.Cooling
  cases s.slashing.lastSlashedAt b with
  | none =>
    simp only [goes_pure]
    refine ⟨fun h => ⟨?_, h⟩, fun h => h.2⟩
    rintro ⟨_, ⟨⟩, _⟩
  | some last =>
    simp only [goes_require, Option.some.injEq, exists_eq_left', not_not]
    rfl

/-- A caller that returns the error executes the slash of `Governance`. -/
theorem goes_tryExecuteSlash (b : Address) (s : Store) (Q : Unit → Store → Prop) :
    Goes ((tryExecuteSlash b).settle .error) ctx s Q ↔ Goes (executeSlash b) ctx s Q := by
  simp only [tryExecuteSlash, executeSlash, requireSlashed, slashVouches, recordSlash, escrowSlashed, keepVouches,
    fileSlash, nextSlashId, onBook, Staged.settle_bind, Staged.settle_within, Staged.lift_eq_stage,
    Staged.settle_stage returned_error, yields_parts, goes_bind, goes_ask, goes_look, goes_orFail, goes_require,
    goes_sumI128, goes_pure, goes_u64, goes_alter, goes_zoom, goes_seizeStakes]
  rfl

/-- What `CanSlash` says is what the slash of a borrower that is not cooling needs. -/
theorem goes_executeSlash (b : Address) (s : Store) :
    (Goes (executeSlash b) ctx s fun _ _ => True) ↔ ¬ s.Cooling ctx.toWorld b ∧
      ∃ loan, s.book.getActiveLoanRecord b = some loan ∧ s.CanSlash ctx.toWorld b loan := by
  simp only [executeSlash, goes_bind, goes_ask, yields_parts, goes_requireSlashCooldown, goes_look, goes_orFail,
    goes_require, goes_sumI128]
  simp only [slashVouches, onBook, recordSlash, nextSlashId, goes_bind, goes_ask, goes_look, goes_require, goes_pure,
    goes_alter, goes_u64, goes_zoom, goes_seizeStakes, goes_trySeizeStakes, goes_processWithdrawalQueue]
  constructor
  · rintro ⟨hcooled, loan, hloan, hstatus, hstakes, hfigures, hseizable, hreleasable, hnumbered, hdrains, -⟩
    exact ⟨hcooled, loan, hloan, hstatus, hstakes, hfigures, hseizable, hreleasable, hnumbered, hdrains⟩
  · rintro ⟨hcooled, loan, hloan, hstatus, hstakes, hfigures, hseizable, hreleasable, hnumbered, hdrains⟩
    exact ⟨hcooled, loan, hloan, hstatus, hstakes, hfigures, hseizable, hreleasable, hnumbered, hdrains, trivial⟩

/-! ### Attempts that leave no trace when they fail -/

/-- A stake to be slashed overflows before anything has been paid or counted. -/
def OverflowsFirst (w : World) (token : Address) (bps : Int) (vouches : List VouchRecord) : Prop :=
  ∃ pre v post, vouches = pre ++ v :: post ∧ (∀ u ∈ pre, u.token ≠ token ∧ w.isZeroAddress u.token = true) ∧
    v.token = token ∧ ¬ FitsI128 (v.stake * bps)

/-- A slash of `b` attempted in `s` returns an error before it has written anything, or goes through. -/
inductive Store.Attemptable (s : Store) (w : World) (b : Address) : Prop
  | cooling : s.Cooling w b → Attemptable s w b
  | unloaned : s.book.getActiveLoanRecord b = none → Attemptable s w b
  | tooLarge {loan} : s.book.getActiveLoanRecord b = some loan → loan.status ≠ .defaulted →
      SumFits 0 ((s.vault.vouching.vouchesOf b).map (·.stake)) →
      OverflowsFirst w loan.tokenAddress (slashRate w s.book b) (s.vault.vouching.vouchesOf b) → Attemptable s w b
  | slashable {loan} : s.book.getActiveLoanRecord b = some loan → s.CanSlash w b loan → Attemptable s w b

theorem returned_of_error (c : ContractError) : Failure.returned (.error c) = some c := rfl

theorem trySeizeStakes_overflows {vouches : List VouchRecord} (h : OverflowsFirst ctx.toWorld token bps vouches)
    (total : Int) (remaining : List VouchRecord) (x : Vault) :
    (trySeizeStakes token bps total remaining vouches).run ctx x = .ok (.error .arithmeticError, x) := by
  obtain ⟨pre, v, post, rfl, hpre, htoken, hlarge⟩ := h
  induction pre generalizing remaining with
  | nil =>
    rw [List.nil_append, trySeizeStakes, if_neg (not_not.2 htoken)]
    refine Staged.run_stage_bind_error ?_ (returned_of_error .arithmeticError) _
    rw [lift_self, seizure, run_bind, run_i128, if_neg hlarge]
  | cons u us ih =>
    obtain ⟨⟨hother, hzero⟩, hus⟩ := List.forall_mem_cons.1 hpre
    rw [List.cons_append, trySeizeStakes, if_pos hother]
    refine (Staged.run_stage_bind_ok (a := ()) (t := x) ?_ _).trans (ih _ hus)
    rw [lift_self, returnForeign, run_bind_ok (run_ask ctx x), if_neg (by rw [hzero]; exact Bool.noConfusion)]
    rfl

/-- An attempt comes to an end in any case, and one that fails leaves everything as it was. -/
theorem Store.Attemptable.settles {s : Store} {b : Address} (h : s.Attemptable ctx.toWorld b) :
    ∃ r t, (tryExecuteSlash b).run ctx s = .ok (r, t) ∧ ∀ e, r = .error e → t = s := by
  have hrefused : ∀ {c : ContractError}, requireSlashed b ctx s = .error (.error c) →
      ∃ r t, (tryExecuteSlash b).run ctx s = .ok (r, t) ∧ ∀ e, r = .error e → t = s := by
    intro c hc
    refine ⟨.error c, s, ?_, fun _ _ => rfl⟩
    rw [tryExecuteSlash]
    exact Staged.run_stage_bind_error hc (returned_of_error c) _
  by_cases hcooling : s.Cooling ctx.toWorld b
  · obtain ⟨last, hlast, hrecent⟩ := hcooling
    refine hrefused (c := .slashCooldownActive) ?_
    have hread : (look (·.lastSlashedAt b) : Contract Slashing (Option Nat)) ctx s.slashing =
        .ok (some last, s.slashing) := by
      rw [run_look, hlast]
    rw [requireSlashed, run_bind_ok (run_ask ctx s)]
    refine run_bind_error (zoom_of_error ?_) _
    rw [lift_self, requireSlashCooldown, run_bind_ok (run_ask ..)]
    exact (run_bind_ok hread _).trans ((run_require ..).trans (if_neg hrecent))
  have hcooled : zoom (requireSlashCooldown b) ctx s = .ok ((), s) := by
    obtain ⟨⟨⟩, t, hrun, rfl⟩ := (goes_requireSlashCooldown b s fun _ t => t = s).2 ⟨hcooling, rfl⟩
    exact hrun
  cases h with
  | cooling hc => exact absurd hc hcooling
  | unloaned hnone =>
    refine hrefused (c := .noActiveLoan) ?_
    rw [requireSlashed, run_bind_ok (run_ask ctx s)]
    refine (run_bind_ok hcooled _).trans ?_
    rw [run_bind_ok (run_look ..), run_bind_ok (run_look ..), hnone]
    rfl
  | @tooLarge loan hloan hstatus hstakes hlarge =>
    have hchecked : requireSlashed b ctx s = .ok ((loan, slashRate ctx.toWorld s.book b), s) := by
      obtain ⟨_, _, hrun, rfl, rfl⟩ : Goes (requireSlashed b) ctx s fun a t =>
          a = (loan, slashRate ctx.toWorld s.book b) ∧ t = s := by
        simp only [requireSlashed, goes_bind, goes_ask, yields_parts, goes_requireSlashCooldown, goes_look, goes_orFail,
          goes_require, goes_sumI128, goes_pure]
        exact ⟨hcooling, loan, hloan, hstatus, hstakes, rfl, trivial⟩
      exact hrun
    refine ⟨.error .arithmeticError, s, ?_, fun _ _ => rfl⟩
    rw [tryExecuteSlash]
    refine (Staged.run_stage_bind_ok hchecked _).trans ?_
    refine (Staged.run_stage_bind_ok (run_look ..) _).trans ?_
    exact Staged.run_within_error (trySeizeStakes_overflows hlarge ..) _
  | slashable hloan hcan =>
    obtain ⟨u, t, hrun, -⟩ := (goes_tryExecuteSlash b s _).2 ((goes_executeSlash b s).2 ⟨hcooling, _, hloan, hcan⟩)
    exact ⟨_, t, Staged.of_settle_ok hrun, fun _ he => by cases he⟩

end

/-! ## The queue -/

def maxSlashQueueSize : Nat := 1000
def maxSlashesPerBatch : Nat := 50

structure LazySlashEntry where
  borrower : Address
  amount : Int
  queuedAt : Nat
deriving DecidableEq, Repr

/-- The contract's storage with `DataKey::LazySlashQueue`; no entry is an empty queue. -/
structure SlashQueueStore where
  core : Store
  queue : List LazySlashEntry

instance : Host.Part SlashQueueStore Store where
  get := SlashQueueStore.core
  set x s := { s with core := x }
instance : Host.Part SlashQueueStore (List LazySlashEntry) where
  get := SlashQueueStore.queue
  set q s := { s with queue := q }

def queueSlash (borrower : Address) (amount : Int) : Contract (List LazySlashEntry) Unit := do
  require (0 < amount) (.error .invalidAmount)
  let queue ← look id
  require (queue.length < maxSlashQueueSize) (.error .queueFull)
  let ctx ← ask
  alter (· ++ [{ borrower, amount, queuedAt := ctx.now }])

/-- `execute_slash_for_lazy_queue`. -/
def executeSlashForLazyQueue (borrower : Address) : Returning Store Unit := tryExecuteSlash borrower

/-- The loop of `execute_queued_slashes` from place `i` on: slashes what is in the
batch and keeps the rest. Returns how many were executed, and what is kept. -/
def slashEntries (batchSize i executed : Nat) (remaining : List LazySlashEntry) :
    List LazySlashEntry → Contract Store (Nat × List LazySlashEntry)
  | [] => return (executed, remaining)
  | entry :: entries =>
    if i < batchSize then do
      match ← (executeSlashForLazyQueue entry.borrower).run with
      | .ok _ => slashEntries batchSize (i + 1) (executed + 1) remaining entries
      | .error _ => slashEntries batchSize (i + 1) executed remaining entries
    else slashEntries batchSize (i + 1) executed (remaining ++ [entry]) entries

def executeQueuedSlashes : Contract SlashQueueStore Nat := do
  let queue ← look (·.queue)
  if queue = [] then return 0
  else do
    let batchSize := min queue.length maxSlashesPerBatch
    let (executed, remaining) ← slashEntries batchSize 0 0 [] queue
    alter fun s => { s with queue := remaining }
    return executed

def queueSlashGov (adminSigners : List Address) (borrower : Address) (slashAmount : Int) :
    Contract SlashQueueStore Unit := do
  requireAdminApproval adminSigners
  queueSlash borrower slashAmount

def executeQueuedSlashesGov (adminSigners : List Address) : Contract SlashQueueStore Nat := do
  requireAdminApproval adminSigners
  executeQueuedSlashes

/-! ### One batch -/

/-- Everyone of `borrowers` can be attempted in the state in which the turn comes to them. -/
def Store.AttemptableAll (ctx : Context) (s : Store) : List Address → Prop
  | [] => True
  | b :: bs => s.Attemptable ctx.toWorld b ∧
      ∀ r t, (executeSlashForLazyQueue b).run ctx s = .ok (r, t) → t.AttemptableAll ctx bs

/-- The borrowers a batch attempts, and the entries it leaves waiting. -/
def SlashQueueStore.batch (s : SlashQueueStore) : List Address := (s.queue.take maxSlashesPerBatch).map (·.borrower)
def SlashQueueStore.waiting (s : SlashQueueStore) : List LazySlashEntry := s.queue.drop maxSlashesPerBatch

/-- A batch from `s` to `t`: every borrower of it is attempted, in the order of the queue, and one whose slash fails
leaves everything as it was. -/
structure FairBatch (ctx : Context) (s t : SlashQueueStore) : Prop where
  attempts : ∃ xs, Sequence (fun b => (executeSlashForLazyQueue b).run) ctx s.core xs t.core ∧
    xs.map (·.item) = s.batch ∧ ∀ x ∈ xs, ∀ e, x.result = .error e → x.after = x.before
  queue : t.queue = s.waiting

section

variable {ctx : Context}

theorem slashEntries_spec (batchSize i executed : Nat) (remaining entries : List LazySlashEntry) (s : Store) :
    Yields (slashEntries batchSize i executed remaining entries) ctx s fun r t =>
      r.2 = remaining ++ entries.drop (batchSize - i) ∧
        ∃ xs, Sequence (fun b => (executeSlashForLazyQueue b).run) ctx s xs t ∧
          xs.map (·.item) = (entries.take (batchSize - i)).map (·.borrower) := by
  induction entries generalizing i executed remaining s with
  | nil => exact (yields_pure _ _ _ _).2 ⟨by simp, [], .nil, by simp⟩
  | cons entry entries ih =>
    rw [slashEntries]
    split
    case isTrue hbatch =>
      obtain ⟨n, hn⟩ : ∃ n, batchSize - i = n + 1 := ⟨batchSize - i - 1, by omega⟩
      have hnext : batchSize - (i + 1) = n := by omega
      have hrest : ∀ executed r t, (executeSlashForLazyQueue entry.borrower).run ctx s = .ok (r, t) →
          Yields (slashEntries batchSize (i + 1) executed remaining entries) ctx t fun r' t' =>
            r'.2 = remaining ++ (entry :: entries).drop (batchSize - i) ∧
              ∃ xs, Sequence (fun b => (executeSlashForLazyQueue b).run) ctx s xs t' ∧
                xs.map (·.item) = ((entry :: entries).take (batchSize - i)).map (·.borrower) := by
        intro executed r t hrun
        refine (ih (i + 1) executed remaining t).mono ?_
        rintro r' t' ⟨hkept, xs, hxs, hitems⟩
        rw [hnext] at hkept hitems
        rw [hn, List.drop_succ_cons, List.take_succ_cons, List.map_cons]
        exact ⟨hkept, ⟨entry.borrower, s, r, t⟩ :: xs, .cons hrun hxs, congrArg (entry.borrower :: ·) hitems⟩
      rw [yields_bind]
      intro r t hrun
      cases r with
      | ok u => exact hrest _ _ t hrun
      | error e => exact hrest _ _ t hrun
    case isFalse hbatch =>
      have hover : batchSize - i = 0 := by omega
      have hnext : batchSize - (i + 1) = 0 := by omega
      refine (ih (i + 1) executed (remaining ++ [entry]) s).mono ?_
      rw [hover, hnext]
      rintro r t ⟨hkept, hxs⟩
      rw [List.drop_zero, List.append_assoc] at hkept
      exact ⟨hkept, hxs⟩

/-- With everyone attemptable, the loop comes to its end. -/
theorem slashEntries_goes (batchSize i executed : Nat) (remaining entries : List LazySlashEntry) (s : Store)
    (h : s.AttemptableAll ctx ((entries.take (batchSize - i)).map (·.borrower))) :
    Goes (slashEntries batchSize i executed remaining entries) ctx s fun _ _ => True := by
  induction entries generalizing i executed remaining s with
  | nil => exact (goes_pure _ _ _ _).2 trivial
  | cons entry entries ih =>
    rw [slashEntries]
    split
    case isTrue hbatch =>
      obtain ⟨n, hn⟩ : ∃ n, batchSize - i = n + 1 := ⟨batchSize - i - 1, by omega⟩
      have hnext : batchSize - (i + 1) = n := by omega
      rw [hn, List.take_succ_cons, List.map_cons] at h
      obtain ⟨r, t, hrun, -⟩ := h.1.settles
      refine (goes_bind _ _ _ _ _).2 ⟨r, t, hrun, ?_⟩
      have hrest := h.2 r t hrun
      rw [← hnext] at hrest
      cases r with
      | ok u => exact ih _ _ _ _ hrest
      | error e => exact ih _ _ _ _ hrest
    case isFalse hbatch =>
      refine ih _ _ _ _ ?_
      have hnext : batchSize - (i + 1) = 0 := by omega
      rw [hnext]
      trivial

/-- A sequence of attemptable borrowers leaves no trace of the failed ones. -/
theorem attempts_clean {s t : Store} {xs : List (Took Address (Except ContractError Unit) Store)}
    (hxs : Sequence (fun b => (executeSlashForLazyQueue b).run) ctx s xs t)
    (h : s.AttemptableAll ctx (xs.map (·.item))) : ∀ x ∈ xs, ∀ e, x.result = .error e → x.after = x.before := by
  induction hxs with
  | nil => exact List.forall_mem_nil _
  | @cons b s r t xs u hrun hrest ih =>
    refine List.forall_mem_cons.2 ⟨?_, ih (h.2 r t hrun)⟩
    intro e he
    obtain ⟨r', t', hrun', hclean⟩ := h.1.settles
    obtain ⟨rfl, rfl⟩ := Prod.mk.inj (Except.ok.inj (hrun.symm.trans hrun'))
    exact hclean e he

theorem SlashQueueStore.take_batch (s : SlashQueueStore) :
    s.queue.take (min s.queue.length maxSlashesPerBatch - 0) = s.queue.take maxSlashesPerBatch := by
  rw [Nat.sub_zero, List.take_eq_take_iff]
  omega

theorem SlashQueueStore.drop_batch (s : SlashQueueStore) :
    s.queue.drop (min s.queue.length maxSlashesPerBatch - 0) = s.waiting := by
  rw [Nat.sub_zero, SlashQueueStore.waiting]
  rcases Nat.le_total s.queue.length maxSlashesPerBatch with hall | hsome
  · rw [Nat.min_eq_left hall, List.drop_length, List.drop_eq_nil_of_le hall]
  · rw [Nat.min_eq_right hsome]

/-- A batch of attemptable borrowers is executed to its end, and fairly. -/
theorem executeQueuedSlashes_fair {s : SlashQueueStore} (h : s.core.AttemptableAll ctx s.batch) :
    Goes executeQueuedSlashes ctx s fun _ t => FairBatch ctx s t := by
  unfold executeQueuedSlashes
  simp only [goes_bind, goes_look, goes_ite, goes_pure, yields_parts, goes_zoom, goes_alter]
  refine ⟨fun hempty => ⟨⟨[], .nil, ?_, List.forall_mem_nil _⟩, ?_⟩, fun _ => ?_⟩
  · simp [SlashQueueStore.batch, hempty]
  · simp [SlashQueueStore.waiting, hempty]
  have hall : s.core.AttemptableAll ctx
      ((s.queue.take (min s.queue.length maxSlashesPerBatch - 0)).map (·.borrower)) := by
    rw [s.take_batch]
    exact h
  refine ((slashEntries_goes _ _ 0 [] _ s.core hall).and_yields (slashEntries_spec _ 0 0 [] s.queue s.core)).mono ?_
  rintro ⟨executed, remaining⟩ t ⟨-, hremaining, xs, hxs, hitems⟩
  rw [s.take_batch] at hitems
  rw [s.drop_batch] at hremaining
  refine ⟨⟨xs, hxs, hitems, attempts_clean hxs ?_⟩, hremaining⟩
  rw [hitems]
  exact h

end

/-! ## Every run -/

/-- A call on the queue, or of any other entry point. -/
inductive SlashQueueOp where
  | queueSlash (adminSigners : List Address) (borrower : Address) (slashAmount : Int)
  | executeQueuedSlashes (adminSigners : List Address)
  | contract (op : Op)

/-- The contract with its slash queue. Elsewhere only the guards' storage and token balances change. -/
def slashQueue : Component World (List Address) Context Failure SlashQueueStore SlashQueueOp where
  run
    | .queueSlash signers borrower amount => queueSlashGov signers borrower amount
    | .executeQueuedSlashes signers => discard (executeQueuedSlashesGov signers)
    | .contract op => zoom (dispatch op)
  context world signers := { world with signers }
  drift w s w' t := w.now ≤ w'.now ∧ w'.contract = w.contract ∧ ∃ access bank,
    t = { s with core := { s.core with access, vault := { s.core.vault with bank } } }

/-- The contract just after `initialize`, with nothing queued. -/
def slashQueueStart (world : World) (bank : Ledger) : Situated World SlashQueueStore :=
  ⟨world, { core := (genesis world bank).store, queue := [] }⟩

abbrev SlashQueueHistory := List
    (Situated World SlashQueueStore × Event World (List Address) SlashQueueStore SlashQueueOp)

/-- Whom an entry of the history has queued, and whom it has attempted. -/
def queuedBy (e : Situated World SlashQueueStore × Event World (List Address) SlashQueueStore SlashQueueOp) :
    List Address :=
  match slashQueue.done e.1 e.2 with
  | some (.queueSlash _ borrower _, _) => [borrower]
  | _ => []

def attemptedBy (e : Situated World SlashQueueStore × Event World (List Address) SlashQueueStore SlashQueueOp) :
    List Address :=
  match slashQueue.done e.1 e.2 with
  | some (.executeQueuedSlashes _, _) => e.1.store.batch
  | _ => []

/-- Everyone queued so far and everyone attempted so far, in that order. -/
def queuedIn (h : SlashQueueHistory) : List Address := h.reverse.flatMap queuedBy
def attemptedIn (h : SlashQueueHistory) : List Address := h.reverse.flatMap attemptedBy

/-- The administration has approved of the batch the event asks for. -/
def AsksForBatch (s : Situated World SlashQueueStore)
    (e : Event World (List Address) SlashQueueStore SlashQueueOp) (signers : List Address) : Prop :=
  ∃ admins, e = .call signers (.executeQueuedSlashes admins) ∧
    requireAdminApproval admins { s.world with signers } s.store = .ok ((), s.store)

/-- A batch that is asked for finds everyone attemptable. -/
def FindsAttemptable (s : Situated World SlashQueueStore)
    (e : Event World (List Address) SlashQueueStore SlashQueueOp) : Prop :=
  ∀ signers, AsksForBatch s e signers → s.store.core.AttemptableAll { s.world with signers } s.store.batch

/-- A batch that is asked for goes through, and is fair. -/
def ServesFairly (s : Situated World SlashQueueStore)
    (e : Event World (List Address) SlashQueueStore SlashQueueOp) : Prop :=
  ∀ signers, AsksForBatch s e signers → ∃ op t, slashQueue.done s e = some (op, t) ∧
    FairBatch { s.world with signers } s.store t

theorem FindsAttemptable.serves {s : Situated World SlashQueueStore}
    {e : Event World (List Address) SlashQueueStore SlashQueueOp} (h : FindsAttemptable s e) : ServesFairly s e := by
  intro signers hasks
  have hall := h signers hasks
  obtain ⟨admins, rfl, happroved⟩ := hasks
  obtain ⟨n, t, hrun, hfair⟩ := executeQueuedSlashes_fair hall
  refine ⟨.executeQueuedSlashes admins, t, Component.done_call ?_, hfair⟩
  have hgov : executeQueuedSlashesGov admins { s.world with signers } s.store = .ok (n, t) :=
    (run_bind_ok happroved _).trans hrun
  have hdiscard : slashQueue.run (.executeQueuedSlashes admins) (slashQueue.context s.world signers) s.store =
      .ok ((), t) := (run_bind_ok hgov _).trans rfl
  rw [Component.exec, hdiscard]

section

variable {s : Situated World SlashQueueStore} {signers : List Address} {t : SlashQueueStore}

theorem queueSlash_queues {admins : List Address} {b : Address} {amount : Int}
    (h : slashQueue.exec s signers (.queueSlash admins b amount) = some t) :
    t.queue.map (·.borrower) = s.store.queue.map (·.borrower) ++ [b] := by
  refine Component.exec_yields (Q := fun t => t.queue.map (·.borrower) = s.store.queue.map (·.borrower) ++ [b]) ?_ h
  change Yields (queueSlashGov admins b amount) _ _ _
  rw [queueSlashGov, yields_bind]
  refine (yields_requireAdminApproval _).mono ?_
  rintro - _ rfl
  simp only [queueSlash, yields_parts, yields_steps]
  intro _ _
  exact List.map_append

theorem executeQueuedSlashes_dequeues {admins : List Address}
    (h : slashQueue.exec s signers (.executeQueuedSlashes admins) = some t) : t.queue = s.store.waiting := by
  refine Component.exec_yields (Q := fun t => t.queue = s.store.waiting) ?_ h
  change Yields (discard (executeQueuedSlashesGov admins)) _ _ _
  rw [discard, yields_bind, executeQueuedSlashesGov, yields_bind]
  refine (yields_requireAdminApproval _).mono ?_
  rintro - _ rfl
  simp only [executeQueuedSlashes, yields_steps, yields_ite, yields_parts]
  refine ⟨fun hempty => ?_, fun _ => (slashEntries_spec _ 0 0 [] _ _).mono ?_⟩
  · rw [SlashQueueStore.waiting, hempty, List.drop_nil]
  · rintro r u ⟨hkept, -⟩
    rw [s.store.drop_batch, List.nil_append] at hkept
    exact hkept

theorem contract_queue {op : Op} (h : slashQueue.exec s signers (.contract op) = some t) : t.queue = s.store.queue := by
  refine Component.exec_yields (Q := fun t => t.queue = s.store.queue) ?_ h
  exact yields_zoom_any fun _ _ => rfl

theorem queuedIn_cons (e : Situated World SlashQueueStore × Event World (List Address) SlashQueueStore SlashQueueOp)
    (h : SlashQueueHistory) : queuedIn (e :: h) = queuedIn h ++ queuedBy e := by
  simp [queuedIn]

theorem attemptedIn_cons (e : Situated World SlashQueueStore × Event World (List Address) SlashQueueStore SlashQueueOp)
    (h : SlashQueueHistory) : attemptedIn (e :: h) = attemptedIn h ++ attemptedBy e := by
  simp [attemptedIn]

/-- Nobody is dropped, repeated or moved: whoever was queued was attempted or still waits, in the order of queueing. -/
theorem queue_in_order {world : World} {bank : Ledger} {h : SlashQueueHistory}
    (hr : Run slashQueue.Step (slashQueueStart world bank) h s) :
    queuedIn h = attemptedIn h ++ s.store.queue.map (·.borrower) := by
  induction hr with
  | nil => rfl
  | @snoc h s e s' hr hst ih =>
    rw [queuedIn_cons, attemptedIn_cons, ih, List.append_assoc, List.append_assoc]
    refine congrArg (attemptedIn h ++ ·) ?_
    rcases hst.cases with ⟨signers, op, rfl, hexec, -⟩ | ⟨hnone, rfl⟩ | ⟨hnone, hdrift⟩
    · have hdone := Component.done_call hexec
      cases op with
      | queueSlash admins b amount =>
        simp only [queuedBy, attemptedBy, hdone, queueSlash_queues hexec, List.nil_append]
      | executeQueuedSlashes admins =>
        simp only [queuedBy, attemptedBy, hdone, executeQueuedSlashes_dequeues hexec, List.append_nil]
        rw [SlashQueueStore.batch, SlashQueueStore.waiting, ← List.map_append, List.take_append_drop]
      | contract op =>
        simp only [queuedBy, attemptedBy, hdone, contract_queue hexec, List.append_nil, List.nil_append]
    · simp only [queuedBy, attemptedBy, hnone, List.append_nil, List.nil_append]
    · obtain ⟨-, -, access, bank, hsame⟩ := hdrift
      simp only [queuedBy, attemptedBy, hnone, hsame, List.append_nil, List.nil_append]

/-- In every run the queue is served in order, each entry once; and where every batch
that is asked for finds its entries attemptable, each is attempted, in spite of the
ones that fail, and a failed one leaves no trace. -/
theorem slash_queue_fair {world : World} {bank : Ledger} {h : SlashQueueHistory}
    (hr : Run slashQueue.Step (slashQueueStart world bank) h s) (hok : Along FindsAttemptable h) :
    queuedIn h = attemptedIn h ++ s.store.queue.map (·.borrower) ∧ Along ServesFairly h :=
  ⟨queue_in_order hr, fun e he => (hok e he).serves⟩

end

/-- Account 2 vouches for account 10, which is then issued a loan. -/
def pooledLoan : List (List Address × SlashQueueOp) :=
  [([2], .contract (.vouch 2 10 1000000 100 0)), ([1], .contract (.createLoanPool [1] [10] [500000]))]

/-- Accounts 11, without a loan, and 10 are queued. -/
def queuedSlashes : List (List Address × SlashQueueOp) :=
  pooledLoan ++ [([1], .queueSlash [1] 11 1), ([1], .queueSlash [1] 10 1)]

/-- A slash that would go through can be attempted. -/
theorem attemptable_of_runs {ctx : Context} {s : Store} {b : Address} (h : (executeSlash b ctx s).toBool = true) :
    s.Attemptable ctx.toWorld b := by
  obtain ⟨-, loan, hloan, hcan⟩ := (goes_executeSlash b s).1 (goes_of_toBool h)
  exact .slashable hloan hcan

/-- A borrower without a loan is passed over. -/
theorem attemptableAll_unloaned {ctx : Context} {s : Store} {b : Address} {bs : List Address}
    (hnone : s.book.getActiveLoanRecord b = none) (h : s.AttemptableAll ctx bs) : s.AttemptableAll ctx (b :: bs) := by
  have hfirst : s.Attemptable ctx.toWorld b := .unloaned hnone
  refine ⟨hfirst, fun r t hrun => ?_⟩
  obtain ⟨r', t', hrun', hclean⟩ := hfirst.settles
  obtain ⟨rfl, rfl⟩ := Prod.mk.inj (Except.ok.inj (hrun.symm.trans hrun'))
  cases r with
  | error e =>
    rw [hclean e rfl]
    exact h
  | ok u =>
    have hslash : Goes (executeSlash b) ctx s fun _ _ => True :=
      (goes_tryExecuteSlash b s _).1 ⟨u, t, Staged.settle_of_ok hrun, trivial⟩
    obtain ⟨-, loan, hloan, -⟩ := (goes_executeSlash b s).1 hslash
    rw [hnone] at hloan
    cases hloan

/-- Only a batch can fail to find someone attemptable. -/
theorem findsAttemptable_of_other {s : Situated World SlashQueueStore} {signers : List Address} {op : SlashQueueOp}
    (h : ∀ admins, op ≠ .executeQueuedSlashes admins) : FindsAttemptable s (.call signers op) := by
  rintro _ ⟨admins, hevent, -⟩
  cases hevent
  exact absurd rfl (h admins)

theorem slash_queue_fair_served :
    let calls := queuedSlashes ++ [([1], .executeQueuedSlashes [1])]
    let h := slashQueue.trace (slashQueueStart sampleWorld sampleBank) [] calls
    let s := slashQueue.play (slashQueueStart sampleWorld sampleBank) calls
    s.store.queue = [] ∧ queuedIn h = attemptedIn h ++ s.store.queue.map (·.borrower) ∧ Along ServesFairly h := by
  intro calls h s
  have hbatch : FindsAttemptable (slashQueue.play (slashQueueStart sampleWorld sampleBank) queuedSlashes)
      (.call [1] (.executeQueuedSlashes [1])) := by
    rintro _ ⟨admins, hevent, -⟩
    cases hevent
    have hqueue : (slashQueue.play (slashQueueStart sampleWorld sampleBank) queuedSlashes).store.batch = [11, 10] := by
      decide +kernel
    rw [hqueue]
    refine attemptableAll_unloaned (by decide +kernel) ⟨attemptable_of_runs (by decide +kernel), fun _ _ _ => trivial⟩
  have hok : Along FindsAttemptable h := by
    refine List.forall_mem_cons.2 ⟨hbatch, List.forall_mem_cons.2 ⟨?_, List.forall_mem_cons.2 ⟨?_,
      List.forall_mem_cons.2 ⟨?_, List.forall_mem_cons.2 ⟨?_, List.forall_mem_nil _⟩⟩⟩⟩⟩
    all_goals
      refine findsAttemptable_of_other ?_
      rintro _ ⟨⟩
  exact ⟨by decide +kernel, slash_queue_fair (Component.run_play slashQueue .nil calls) hok⟩

/-- The deadline of the loan of account 10 has passed. -/
def overdue : Situated World SlashQueueStore :=
  ⟨{ sampleWorld with now := 4000000 }, (slashQueue.play (slashQueueStart sampleWorld sampleBank) pooledLoan).store⟩

/-- Reading the loan marks it; accounts 10 and 11 are queued. -/
def marked : List (List Address × SlashQueueOp) :=
  [([], .contract (.getLoan 10)), ([1], .queueSlash [1] 10 1), ([1], .queueSlash [1] 11 1)]

/-- The loan marked in default is still the active loan of account 10: its slash panics, and
with it every batch, account 11 unattempted behind it. -/
theorem marked_loan_blocks_queue :
    ¬ ∀ world bank h s, Run slashQueue.Step (slashQueueStart world bank) h s →
      queuedIn h = attemptedIn h ++ s.store.queue.map (·.borrower) ∧ Along ServesFairly h := by
  intro hclaim
  have hstart : Run slashQueue.Step (slashQueueStart sampleWorld sampleBank) [] _ := .nil
  have hpooled := Component.run_play slashQueue hstart pooledLoan
  have hlater : Run slashQueue.Step (slashQueueStart sampleWorld sampleBank) _ overdue :=
    hpooled.snoc (.elsewhere ⟨by decide +kernel, rfl, _, _, rfl⟩)
  have hmarked := Component.run_play slashQueue hlater marked
  have hrefused : slashQueue.exec (slashQueue.play overdue marked) [1] (.executeQueuedSlashes [1]) = none :=
    Option.isNone_iff_eq_none.1 (by decide +kernel)
  have happroved : (requireAdminApproval [1] { (slashQueue.play overdue marked).world with signers := [1] }
      (slashQueue.play overdue marked).store).toBool = true := by
    decide +kernel
  generalize slashQueue.play overdue marked = s at hmarked hrefused happroved
  have hbatch := hclaim _ _ _ _ (hmarked.snoc (.call s [1] (.executeQueuedSlashes [1])))
  obtain ⟨⟨⟩, t, hrun, -⟩ := goes_of_toBool happroved
  have hsame : t = s.store := yields_requireAdminApproval [1] () t hrun
  subst hsame
  obtain ⟨op, t, hdone, -⟩ := List.forall_mem_cons.1 hbatch.2 |>.1 [1] ⟨[1], rfl, hrun⟩
  rw [Component.done, hrefused] at hdone
  cases hdone

end QuorumCredit
