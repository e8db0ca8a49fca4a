import QuorumCredit.Repayable
import QuorumCredit.Host.Sums
/-!
# The principal that is out

The principal of the active loans in a token that has not been paid back: what it
is in each book, and how a call changes it. Marking a loan as defaulted writes its
principal off; what a payment takes off it may be more than there is, since a
payment on the yield counts as one on the principal.
-/

open Host Function

namespace QuorumCredit

/-- The principal still out on a loan in the token, as long as the loan is active. -/
def LoanRecord.principalIn (token : Address) (loan : LoanRecord) : Int :=
  if loan.status = .active ∧ loan.tokenAddress = token then loan.amount - loan.amountRepaid else 0

/-- The same for what is stored under an id. -/
def principalOf (token : Address) : Option LoanRecord → Int
  | some loan => loan.principalIn token
  | none => 0

/-- The principal a look at a loan writes off. -/
def overdueIn (token : Address) (now : Nat) : Option LoanRecord → Int
  | some loan => if isLoanDefaulted now loan = true then loan.principalIn token else 0
  | none => 0

/-- The principal of loans issued together. -/
def pooledIn (token t : Address) (pool : List (Address × Int)) : Int :=
  if t = token then (pool.map (·.2)).sum else 0

theorem LoanRecord.principalIn_inactive (token : Address) {loan : LoanRecord} (h : loan.status ≠ .active) :
    loan.principalIn token = 0 := if_neg fun hin => h hin.1

theorem LoanRecord.principalIn_other {token : Address} {loan : LoanRecord} (h : loan.tokenAddress ≠ token) :
    loan.principalIn token = 0 := if_neg fun hin => h hin.2

/-- The flags of a settled loan are not its status. -/
theorem LoanRecord.principalIn_flagged (token : Address) (loan : LoanRecord) :
    { loan with defaulted := true }.principalIn token = loan.principalIn token := rfl

theorem Fresh.principalIn {k : LoanBook} {n : Nat} {b : Address} {loan : LoanRecord} (hf : Fresh k n b loan)
    (token : Address) :
    loan.principalIn token = if loan.tokenAddress = token then loan.amount else 0 := by
  unfold LoanRecord.principalIn
  simp only [hf.status, true_and, hf.unpaid, Int.sub_zero]

namespace LoanBook

/-- The principal that is out on the loans in the token, less what was paid beyond it. -/
noncomputable def lent (token : Address) (k : LoanBook) : Int := ∑ᶠ id, principalOf token (k.loan id)

/-- The outstanding principal of the active loans in the token. -/
noncomputable def outstanding (token : Address) (k : LoanBook) : Int := ∑ᶠ id, max 0 (principalOf token (k.loan id))

/-- The principal that looking at these loans writes off. -/
def writtenOff (token : Address) (now : Nat) (k : LoanBook) : List Nat → Int
  | [] => 0
  | id :: ids => overdueIn token now (k.loan id) + (k.markDefault now id).writtenOff token now ids

section

variable {k k' : LoanBook} (token : Address)

theorem Keyed.lent_finite (hk : k.Keyed) : (support fun id => principalOf token (k.loan id)).Finite := by
  refine (Set.finite_le_nat k.loanCounter).subset fun id hid => ?_
  by_contra hout
  refine hid ?_
  simp only [hk.unused (not_le.1 hout), principalOf]

theorem Keyed.outstanding_finite (hk : k.Keyed) : (support fun id => max 0 (principalOf token (k.loan id))).Finite := by
  refine (hk.lent_finite token).subset fun id hid hzero => hid ?_
  simp only [hzero, max_self]

theorem Keyed.lent_le (hk : k.Keyed) : k.lent token ≤ k.outstanding token := by
  apply finsum_le_finsum' (hk.lent_finite token) (hk.outstanding_finite token)
  intro id
  exact le_max_right ..

theorem lent_empty : LoanBook.empty.lent token = 0 := finsum_zero

/-- One record stored anew. -/
theorem Keyed.lent_store (hk : k.Keyed) {id : Nat} {new : LoanRecord} (h : k'.loan = update k.loan id (some new)) :
    k'.lent token = k.lent token + new.principalIn token - principalOf token (k.loan id) := by
  rw [lent, h]
  exact finsum_update_entry (hk.lent_finite token) id (some new)

/-- The record of an active loan stored anew. -/
theorem Keyed.lent_restore (hk : k.Keyed) {b : Address} {old new : LoanRecord} (ho : k.getActiveLoanRecord b = some old)
    (h : k'.loan = update k.loan old.id (some new)) :
    k'.lent token = k.lent token + new.principalIn token - old.principalIn token := by
  rw [hk.lent_store token h, (hk.active_record ho).2.1, principalOf]

theorem lent_markDefault (hk : k.Keyed) (now id : Nat) :
    (k.markDefault now id).lent token = k.lent token - overdueIn token now (k.loan id) := by
  cases hl : k.loan id with
  | none =>
    have hkept : k.markDefault now id = k := by
      unfold markDefault
      rw [hl]
    rw [hkept, overdueIn, Int.sub_zero]
  | some loan =>
    by_cases hd : isLoanDefaulted now loan = true
    · have hmarked : k.markDefault now id = k.markLoan id loan := by
        unfold markDefault
        rw [hl]
        exact if_pos hd
      have hstored : (k.markLoan id loan).lent token = _ := hk.lent_store token rfl
      rw [LoanRecord.principalIn_inactive token (by simp), hl] at hstored
      rw [hmarked, hstored, overdueIn, if_pos hd, principalOf]
      omega
    · have hkept : k.markDefault now id = k := by
        unfold markDefault
        rw [hl]
        exact if_neg hd
      rw [hkept, overdueIn, if_neg hd, Int.sub_zero]

/-- Marking writes the principal of the loans it marks off. -/
theorem lent_markAll (hk : k.Keyed) (now : Nat) (ids : List Nat) :
    (k.markAll now ids).lent token = k.lent token - k.writtenOff token now ids := by
  induction ids generalizing k with
  | nil => simp [markAll, writtenOff]
  | cons id ids ih =>
    have hrest := ih (hk.mark now id)
    have hfirst := lent_markDefault token hk now id
    change ((k.markDefault now id).markAll now ids).lent token = _
    rw [writtenOff]
    omega

/-- A loan under a new id adds its amount. -/
theorem Keyed.lent_issue (hk : k.Keyed) {n : Nat} {b : Address} {loan : LoanRecord} (hf : Fresh k n b loan)
    (h : k'.loan = update k.loan loan.id (some loan)) :
    k'.lent token = k.lent token + if loan.tokenAddress = token then loan.amount else 0 := by
  have hid := hf.id
  rw [hk.lent_store token h, hk.unused (by omega), principalOf, Int.sub_zero, hf.principalIn]

theorem Keyed.lent_pool {t : Address} {pool : List (Address × Int)} (hk : k.Keyed) (hp : PoolEffect t k pool k') :
    k'.lent token = k.lent token + pooledIn token t pool := by
  induction hp with
  | nil =>
    unfold pooledIn
    simp
  | @cons k b amount loan rest k' hf hamount htoken _ ih =>
    have hfirst : ((k.takeIds 1).issue loan).lent token = _ := hk.lent_issue token hf rfl
    rw [ih (hk.issue hf), hfirst, hamount, htoken]
    unfold pooledIn
    simp only [List.map_cons, List.sum_cons]
    split
    · omega
    · omega

end

end LoanBook

/-! ## What a call does to it -/

section

variable {w : World} {k k' : LoanBook} {op : Op} (token : Address)

/-- What a payment of `n` takes off the principal. -/
def LoanRecord.takenOff (token : Address) (now : Nat) (n : Int) (loan : LoanRecord) : Int :=
  if n < loan.outstandingAt now then if loan.status = .active ∧ loan.tokenAddress = token then n else 0
  else loan.principalIn token

theorem Effect.lent_looked (he : Effect w k op k') (hk : k.Keyed) (hop : op.onlyLooks = true) :
    k'.lent token = k.lent token - k.writtenOff token w.now (op.looksAt w k) := by
  cases he with
  | looked _ => exact LoanBook.lent_markAll token hk w.now _
  | _ => cases hop

theorem Effect.lent_repaid {b : Address} {n : Int} {loan : LoanRecord} (he : Effect w k (.repay b n) k') (hk : k.Keyed)
    (ho : k.loanToRepay b = some loan) : 0 < n ∧ k'.lent token = k.lent token - loan.takenOff token w.now n := by
  have hsame {old : LoanRecord} (hold : k.loanToRepay b = some old) : old = loan := Option.some.inj (hold.symm.trans ho)
  have hl := (hk.loan_to_repay ho).1
  unfold LoanRecord.takenOff
  cases he with
  | looked honly => cases honly
  | @paid _ _ old new hold hs hst hpaid hopen =>
    obtain rfl := hsame hold
    have hstored : (k.setLoan new.id new).lent token = _ := hk.lent_store token rfl
    have htoken : new.tokenAddress = old.tokenAddress := by
      rw [hpaid.record]
      exact accrueInterest_token w.now old
    have hrepaid : new.amountRepaid = old.amountRepaid + n := by
      rw [hpaid.record]
      rfl
    refine ⟨hpaid.positive, ?_⟩
    rw [hstored, hs.id, hl, if_pos hopen, principalOf, LoanRecord.principalIn, LoanRecord.principalIn, hst, htoken,
      hs.amount, hrepaid]
    split
    · omega
    · omega
  | @recovered _ _ old new hold _ hs hst hpaid hall =>
    obtain rfl := hsame hold
    have hstored : (k.setLoan new.id new).lent token = _ := hk.lent_store token rfl
    have hnothing : new.principalIn token = 0 := LoanRecord.principalIn_inactive token (by simp [hst])
    have hold : principalOf token (k.loan new.id) = old.principalIn token := by rw [hs.id, hl, principalOf]
    refine ⟨hpaid.positive, ?_⟩
    rw [hstored, if_neg (by omega)]
    omega
  | @closed _ _ old new hold _ hs hst hpaid hall =>
    obtain rfl := hsame hold
    have hstored : ((((k.addRepayment b).setActiveLoan b none).decrementTvlCounters new.amount).setLoan new.id new).lent
        token = _ := hk.lent_store token rfl
    have hnothing : new.principalIn token = 0 := LoanRecord.principalIn_inactive token (by simp [hst])
    have hold : principalOf token (k.loan new.id) = old.principalIn token := by rw [hs.id, hl, principalOf]
    refine ⟨hpaid.positive, ?_⟩
    rw [hstored, if_neg (by omega)]
    omega

theorem Effect.lent_partial {b t : Address} {n : Int} (he : Effect w k (.repayPartial b n t) k') (hk : k.Keyed) :
    ∃ loan, k.getActiveLoanRecord b = some loan ∧ 0 < n ∧
      k'.lent token = k.lent token - if loan.status = .active ∧ loan.tokenAddress = token then n else 0 := by
  cases he with
  | looked honly => cases honly
  | @paidPartial _ _ _ old new hold hs hst hpos hnew =>
    subst hnew
    refine ⟨old, hold, hpos, (hk.lent_restore token hold rfl).trans ?_⟩
    rw [LoanRecord.principalIn, LoanRecord.principalIn]
    dsimp only
    split
    · omega
    · omega

theorem Effect.lent_refinanced {b t : Address} {n threshold : Int} (he : Effect w k (.refinanceLoan b n threshold t) k')
    (hk : k.Keyed) : ∃ old, k.getActiveLoanRecord b = some old ∧
      k'.lent token = k.lent token - old.principalIn token + if t = token then n else 0 := by
  cases he with
  | looked honly => cases honly
  | @refinanced _ _ _ _ old new loan hold hs hst _ _ hf hamount htoken =>
    obtain ⟨-, hl, -⟩ := hk.active_record hold
    have hclosed := (hk.store hl hs (.inr hst)).release b
    have hstored : ((k.setLoan new.id new).setActiveLoan b none).lent token = _ := hk.lent_store token rfl
    have hissued : ((((k.setLoan new.id new).setActiveLoan b none).takeIds 1).issue loan).lent token = _ :=
      hclosed.lent_issue token (hf.congr rfl) rfl
    have hnothing : new.principalIn token = 0 := LoanRecord.principalIn_inactive token (by simp [hst])
    have hopen : principalOf token (k.loan new.id) = old.principalIn token := by rw [hs.id, hl, principalOf]
    refine ⟨old, hold, ?_⟩
    rw [hissued, hstored, hamount, htoken]
    omega

theorem Effect.lent_requested {b t : Address} {n threshold : Int} {purpose : String}
    (he : Effect w k (.requestLoan b n threshold purpose t) k') (hk : k.Keyed) :
    k'.lent token = k.lent token - k.writtenOff token w.now (k.borrowerLoanIds b) + if t = token then n else 0 := by
  cases he with
  | looked honly => cases honly
  | @requested _ _ _ _ _ loan _ hf hamount htoken =>
    obtain ⟨ids, hopen⟩ := LoanBook.openLoan_eq ((k.markAll w.now (k.borrowerLoanIds b)).takeIds 2) loan
    have hstored : ((((k.markAll w.now (k.borrowerLoanIds b)).takeIds 2).openLoan loan).incrementTvlCounters n).loan =
        update (k.markAll w.now (k.borrowerLoanIds b)).loan loan.id (some loan) := by
      rw [hopen]
      rfl
    rw [(hk.markAll w.now _).lent_issue token hf hstored, LoanBook.lent_markAll token hk, hamount, htoken]

theorem Effect.lent_pooled {signers borrowers : List Address} {amounts : List Int}
    (he : Effect w k (.createLoanPool signers borrowers amounts) k') (hk : k.Keyed) :
    k'.lent token = k.lent token + pooledIn token w.config.token (borrowers.zip amounts) := by
  cases he with
  | looked honly => cases honly
  | pooled _ _ hp => exact hk.lent_pool token hp

/-- The settlements of `lib.rs` set the flag and leave the status. -/
theorem Effect.lent_flagged {b : Address} (he : Effect w k op k') (hk : k.Keyed)
    (hop : (∃ signers, op = .slash signers b) ∨ op = .autoSlash b ∨ op = .claimExpiredLoan b) :
    k'.lent token = k.lent token := by
  cases he with
  | autoSlashed => rfl
  | @slashed _ _ loan hold _ | @claimed _ loan hold _ _ =>
    refine (hk.lent_restore token hold rfl).trans ?_
    rw [LoanRecord.principalIn_flagged]
    omega
  | looked honly => rcases hop with ⟨_, rfl⟩ | rfl | rfl <;> cases honly
  | _ => rcases hop with ⟨_, hop⟩ | hop | hop <;> cases hop

/-- The execution of an approved slash writes the principal off. -/
theorem Effect.lent_executed {b : Address} {loan : LoanRecord} (he : Effect w k op k') (hk : k.Keyed)
    (hop : op.executes = some b) (hloan : k.getActiveLoanRecord b = some loan) :
    k'.lent token = k.lent token - loan.principalIn token := by
  cases he with
  | @executedVote _ old hold _ | @executedPending _ old hold _ =>
    cases hop
    obtain rfl : old = loan := Option.some.inj (hold.symm.trans hloan)
    refine (hk.lent_restore token hold rfl).trans ?_
    rw [LoanRecord.principalIn_inactive token (by simp)]
    omega
  | looked honly => cases op <;> first | (cases honly; done) | cases hop
  | _ => cases hop

end

end QuorumCredit
