import QuorumCredit.Repayable
import QuorumCredit.LoanLife
/-!
# Yields paid and yields owed

The yields of a loan are locked in when it is disbursed and paid when it is
repaid, to the vouches as they then stand. Each voucher's stake counts once, so
whatever has become of the vouches in between, the yields paid out of the
distribution are part of what was locked in. On top of them the settlement pays
the bonus of the token's liquidity tier.
-/

open Host Function

namespace QuorumCredit

/-! ## What a call does to the locked yields -/

/-- The yields of a distribution, added up. -/
def yieldSum (dist : List YieldDistributionEntry) : Int := (dist.map (·.yieldAmount)).sum

/-- A call keeps the locked yields, or locks in those of a new loan, or clears
those of a loan it has settled. -/
inductive LockEffect (s t : Store) : Prop
  | kept : t.locked = s.locked → LockEffect s t
  | locked {loan entries} : s.book.loanCounter < loan.id → t.book.loan loan.id = some loan →
      yieldSum entries = loan.totalYield → t.locked = update s.locked loan.id entries → LockEffect s t
  | cleared {id loan} : t.book.loan id = some loan → loan.status = .repaid →
      t.locked = update s.locked id [] → LockEffect s t

/-- The same effect from and to stores that agree on the loans and what is locked. -/
theorem LockEffect.congr {s s' t t' : Store} (h : LockEffect s' t') (hs : s'.book = s.book) (hs' : s'.locked = s.locked)
    (ht : t'.book = t.book) (ht' : t'.locked = t.locked) : LockEffect s t := by
  cases h with
  | kept h => exact .kept (ht'.symm.trans (h.trans hs'))
  | locked hid hloan hsum h => exact .locked (hs ▸ hid) (ht ▸ hloan) hsum (ht'.symm.trans (hs' ▸ h))
  | cleared hloan hst h => exact .cleared (ht ▸ hloan) hst (ht'.symm.trans (hs' ▸ h))

instance (amount : Int) : Keeps Terms.yieldDistribution (collectInsuranceFee amount) where
  out ctx x := by
    simp only [collectInsuranceFee, yields_steps, yields_ite]
    exact ⟨fun _ => trivial, fun _ => trivial⟩

instance (borrower : Address) : Keeps Terms.yieldDistribution (requireRefinanceAllowed borrower) := by
  unfold requireRefinanceAllowed; infer_instance

instance (old : LoanRecord) (newAmount : Int) : Keeps Terms.yieldDistribution (outstandingTerms old newAmount) := by
  unfold outstandingTerms; infer_instance

instance (old new : LoanRecord) (outstanding oldRateBps newRateBps : Int) :
    Keeps Terms.yieldDistribution (recordRefinance old new outstanding oldRateBps newRateBps) where
  out ctx x := by
    simp only [recordRefinance, yields_steps, yields_i128, yields_u32]
    exact fun _ _ _ => trivial

instance (borrowers : List Address) (amounts : List Int) (total : Int) :
    Keeps Terms.yieldDistribution (recordPool borrowers amounts total) where
  out ctx x := by
    simp only [recordPool, yields_steps]
    exact fun _ => trivial

instance (loanId ltv dti period : Nat) :
    Keeps Terms.yieldDistribution (initializeLoanCovenants loanId ltv dti period) where
  out ctx x := by
    simp only [initializeLoanCovenants, yields_steps]
    exact fun _ _ => trivial

section

set_option synthInstance.maxSize 200000

instance (borrower : Address) (amount threshold : Int) (token : Address) :
    Keeps Store.locked (admitLoan borrower amount threshold token) := by
  unfold admitLoan; infer_instance

instance (loan : LoanRecord) : Keeps Store.locked (disburseLoan loan) := by
  unfold disburseLoan; infer_instance

instance (borrower : Address) (payment : Int) (token : Address) :
    Keeps Store.locked (repayPartial borrower payment token) := by
  unfold repayPartial; infer_instance

instance (borrower : Address) (amount threshold : Int) (token : Address) :
    Keeps Store.locked (refinanceLoan borrower amount threshold token) := by
  unfold refinanceLoan; infer_instance

instance (borrower : Address) (amount : Int) (deadline : Nat) :
    Keeps Store.locked (issuePoolLoan borrower amount deadline) := by
  unfold issuePoolLoan; infer_instance

instance (deadline : Nat) (pool : List (Address × Int)) : Keeps Store.locked (issuePool deadline pool) := by
  induction pool with
  | nil => unfold issuePool; infer_instance
  | cons entry rest ih => unfold issuePool; infer_instance

instance (signers borrowers : List Address) (amounts : List Int) :
    Keeps Store.locked (createLoanPool signers borrowers amounts) := by
  unfold createLoanPool; infer_instance

instance (borrower : Address) : Keeps Store.locked (executeSlash borrower) := by
  unfold executeSlash; infer_instance

instance (borrower : Address) : Keeps Store.locked (executeSlashVote borrower) := by
  unfold executeSlashVote; infer_instance

instance (borrower : Address) : Keeps Store.locked (executePendingSlash borrower) := by
  unfold executePendingSlash; infer_instance

instance (now : Nat) (borrower : Address) (payment : Int) : Keeps Store.locked (takePayment now borrower payment) := by
  unfold takePayment; infer_instance

instance (now : Nat) (borrower : Address) (payment : Int) : Keeps Store.book (takePayment now borrower payment) := by
  unfold takePayment; infer_instance

end

section Calls

variable {ctx : Context} {s : Store}

/-- The shares are added up as they are recorded. -/
theorem yieldDistribution_sum (borrower token : Address) (amount totalStake tierBonus : Int) (repayments defaults : Nat)
    (vouches : List VouchRecord) (acc : YieldShares) (x : Vouching) (hacc : yieldSum acc.entries = acc.total) :
    Yields (yieldDistribution borrower token amount totalStake tierBonus repayments defaults acc vouches) ctx x
      fun shares _ => yieldSum shares.entries = shares.total := by
  induction vouches generalizing acc x with
  | nil =>
    rw [yieldDistribution, yields_pure]
    exact hacc
  | cons v vs ih =>
    by_cases htoken : v.token = token
    · rw [yieldDistribution, if_pos htoken]
      simp only [yields_bind, yields_i128]
      refine (yields_true _ _ _).mono fun share y _ => ?_
      intro _
      refine ih _ y ?_
      simp only [yieldSum, List.map_append, List.sum_append, List.map_singleton, List.sum_singleton]
      rw [← hacc, yieldSum]
    · rw [yieldDistribution, if_neg htoken]
      exact ih acc x hacc

theorem lockYield_sum (borrower token : Address) (amount totalStake : Int) (repayments defaults : Nat) (x : Vouching) :
    Yields (lockYield borrower token amount totalStake repayments defaults) ctx x fun shares _ =>
      yieldSum shares.entries = shares.total := by
  simp only [lockYield, yields_steps, yields_i128]
  refine (yields_true _ _ _).mono fun _ y _ => ?_
  intro _
  exact yieldDistribution_sum _ _ _ _ _ _ _ _ _ _ rfl

theorem requestLoan_locked (borrower : Address) (amount threshold : Int) (purpose : String) (token : Address) :
    Yields (requestLoan borrower amount threshold purpose token) ctx s fun _ t => LockEffect s t := by
  unfold requestLoan
  simp only [yields_bind, yields_ask, yields_look, yields_u64, lift_eq_zoom, lift_self]
  refine ((admitLoan_book _ _ _ _).and (Keeps.out (f := Store.locked) _ _)).mono ?_
  rintro totalStake s₁ ⟨⟨hbook, -⟩, hlocked⟩
  have hcounter : s₁.book.loanCounter = s.book.loanCounter := by
    rw [hbook]
    exact LoanBook.markAll_frame LoanBook.loanCounter (fun _ _ _ _ => rfl) _ _ _
  refine (yields_zoom _ _ _ _).2 ((yields_nextLoanId _ _).2 fun _ => ?_)
  -- the shares are of vouches: they touch neither the book nor what is locked
  refine ((((yields_zoom _ _ _ fun shares _ => yieldSum shares.entries = shares.total).2 ((yields_zoom _ _ _ _).2
    (lockYield_sum _ _ _ _ _ _ _))).and (Keeps.out (f := Store.book) _ _)).and
      (Keeps.out (f := Store.locked) _ _)).mono ?_
  rintro shares s₂ ⟨⟨hsum, hbook₂⟩, hlocked₂⟩ _
  have hcounter₂ : s₂.book.loanCounter = s.book.loanCounter + 1 := by
    rw [hbook₂, ← hcounter]
    rfl
  replace hlocked₂ : s₂.locked = s.locked := hlocked₂.trans hlocked
  clear hbook₂
  refine (yields_zoom _ _ _ _).2 ((yields_nextLoanId _ _).2 fun _ => ?_)
  simp only [yields_zoom, setYieldDistribution, yields_alter]
  refine ((disburseLoan_book _).and (Keeps.out (f := Store.locked) _ _)).mono ?_
  rintro - t ⟨⟨-, ht⟩, hlocked'⟩
  refine @LockEffect.locked _ _ (newLoan (s₂.book.loanCounter + 1) borrower amount shares.total ctx.now
    (ctx.now + ctx.config.loanDuration) purpose token) shares.entries ?_ ?_ hsum ?_
  · change s.book.loanCounter < s₂.book.loanCounter + 1
    omega
  · obtain ⟨ids, hopen⟩ := LoanBook.openLoan_eq _ (newLoan (s₂.book.loanCounter + 1) borrower amount shares.total
      ctx.now (ctx.now + ctx.config.loanDuration) purpose token)
    rw [ht]
    refine (congrArg (fun k : LoanBook => k.loan (s₂.book.loanCounter + 1)) hopen).trans ?_
    exact update_self (s₂.book.loanCounter + 1) ..
  · rw [hlocked', ← hlocked₂]
    rfl

theorem settlePayment_locked (borrower : Address) (paid : Payment) (wasDefaulted : Bool) :
    Yields (settlePayment borrower paid wasDefaulted) ctx s fun _ t => LockEffect s t := by
  unfold settlePayment
  simp only [yields_bind, yields_ask]
  refine yields_keeps Store.locked fun penalty s₁ h₁ => ?_
  refine (yields_ite _ _ _ _ _ _).2 ⟨fun _ => ?_, fun _ => ?_⟩
  · cases wasDefaulted with
    | true =>
      simp only [if_true, lift_eq_zoom, lift_self, yields_bind]
      refine yields_keeps Store.locked fun _ s₂ h₂ => ?_
      refine (yields_zoom _ _ _ _).2 ((yields_onBook _ _ _).2 (.kept ?_))
      exact h₂.trans h₁
    | false =>
      simp only [Bool.false_eq_true, if_false, lift_eq_zoom, lift_self, yields_bind, closeLoan, yields_look]
      refine yields_keeps Store.locked fun _ s₂ h₂ => ?_
      simp only [yields_zoom, yields_onBook, setYieldDistribution, yields_alter]
      refine @LockEffect.cleared _ _ paid.loan.id (paid.loan.settledAt ctx.now) (update_self ..) rfl ?_
      rw [← h₁, ← h₂]
      rfl
  · simp only [lift_eq_zoom, lift_self, yields_zoom, yields_onBook]
    exact .kept h₁

theorem repay_locked (borrower : Address) (payment : Int) :
    Yields (repay borrower payment) ctx s fun _ t => LockEffect s t := by
  simp only [repay_eq, yields_steps]
  refine yields_keeps₂ Store.book Store.locked fun _ s₁ hbook₁ hlocked₁ => ?_
  refine yields_keeps₂ Store.book Store.locked fun taken s₂ hbook₂ hlocked₂ => ?_
  refine (settlePayment_locked _ _ _).mono fun _ s₃ h₃ => ?_
  refine yields_keeps₂ Store.book Store.locked fun _ t hbook hlocked => ?_
  exact h₃.congr (hbook₂.trans hbook₁) (hlocked₂.trans hlocked₁) hbook.symm hlocked.symm

theorem dispatch_locked (op : Op) : Yields (dispatch op) ctx s fun _ t => LockEffect s t := by
  cases op with
  | requestLoan borrower amount threshold purpose token =>
    exact requestLoan_locked borrower amount threshold purpose token
  | repay borrower payment => exact repay_locked borrower payment
  | _ =>
    dsimp only [dispatch]
    exact (Keeps.out (f := Store.locked) _ _).mono fun _ _ => .kept

end Calls

theorem lockEffect_of {s : State} {c : Call} {t : Store} (h : exec c s = .ok t) : LockEffect s.store t :=
  yields_exec (dispatch_locked c.op) h

/-! ## What is recorded at disbursement -/

/-- A loan as it was disbursed, with the yields locked in for it. -/
structure Disbursement where
  loan : LoanRecord
  dist : List YieldDistributionEntry

/-- The disbursement of loan `id`: the first call of the history that left a loan under that id. -/
def disbursement (id : Nat) : List (State × Move) → Option Disbursement
  | [] => none
  | e :: h =>
    match disbursement id h with
    | some d => some d
    | none =>
      match done e with
      | some (_, t) => (t.book.loan id).map fun loan => ⟨loan, t.locked id⟩
      | none => none

/-- The disbursement recorded nothing negative. -/
structure Disbursement.Nonneg (d : Disbursement) : Prop where
  total : 0 ≤ d.loan.totalYield
  shares : ∀ e ∈ d.dist, 0 ≤ e.yieldAmount

section

variable {id : Nat} {h : List (State × Move)}

theorem disbursement_other {e : State × Move} (he : done e = none) : disbursement id (e :: h) = disbursement id h := by
  rw [disbursement, he]
  cases disbursement id h <;> rfl

theorem disbursement_old {e : State × Move} {d : Disbursement} (hd : disbursement id h = some d) :
    disbursement id (e :: h) = some d := by
  rw [disbursement, hd]

theorem disbursement_call {s : State} {c : Call} {t : Store} (hd : exec c s = .ok t)
    (hnone : disbursement id h = none) :
    disbursement id ((s, .call c) :: h) = (t.book.loan id).map fun loan => ⟨loan, t.locked id⟩ := by
  rw [disbursement, hnone, done_ok hd]

end

/-- Loan `id` owes the yield it was disbursed with and, as long as it is active,
the yields locked in for it are those recorded then. They add up to what it owes,
or there are none. -/
structure AsDisbursed (h : List (State × Move)) (s : Store) (id : Nat) : Prop where
  unissued : s.book.loan id = none → disbursement id h = none ∧ s.locked id = []
  issued : ∀ loan, s.book.loan id = some loan → ∃ d, disbursement id h = some d ∧
    loan.totalYield = d.loan.totalYield ∧ (loan.status = .active → s.locked id = d.dist) ∧
    (d.dist = [] ∨ yieldSum d.dist = d.loan.totalYield)

theorem RecordMove.totalYield {w : World} {k : LoanBook} {op : Op} {old new : LoanRecord}
    (h : RecordMove w k op old new) :
    new.totalYield = old.totalYield := by
  cases h with
  | kept | marked _ | flagged | executed _ _ _ | paidPartial _ _ => rfl
  | paid _ _ hp _ | settled _ _ hp _ => exact hp.obligation.2
  | refinanced hsame _ _ _ => exact hsame.totalYield

/-- No call makes a loan active again. -/
theorem RecordMove.active {w : World} {k : LoanBook} {op : Op} {old new : LoanRecord} (h : RecordMove w k op old new)
    (hnew : new.status = .active) : old.status = .active := by
  cases h with
  | kept | flagged | paidPartial _ _ => exact hnew
  | marked _ | executed _ _ _ => cases hnew
  | paid _ hst _ _ => exact hst ▸ hnew
  | settled _ hst _ _ | refinanced _ hst _ _ => rw [hst] at hnew; cases hnew

/-- No call removes a loan. -/
theorem Effect.loan_none {w : World} {k k' : LoanBook} {op : Op} (hk : k.Keyed) (he : Effect w k op k') {id : Nat}
    (hnone : k'.loan id = none) : k.loan id = none := by
  by_cases hop : op.settles = none
  · cases ho : k.loan id with
    | none => rfl
    | some old =>
      obtain ⟨new, hnew, -⟩ := LoanBook.MovesTo.effect hk he hop id old ho
      rw [hnone] at hnew
      cases hnew
  · have hset : ∀ {i : Nat} {loan : LoanRecord}, update k.loan i (some loan) id = none → k.loan id = none := by
      intro i loan h
      by_cases hi : id = i
      · rw [hi, update_self] at h
        cases h
      · rwa [update_of_ne hi] at h
    cases he with
    | slashed _ _ | claimed _ _ _ | executedVote _ _ | executedPending _ _ => exact hset hnone
    | autoSlashed _ _ => exact hnone
    | looked _ =>
      rw [LoanBook.markAll_loan] at hnone
      split at hnone
      · exact Option.map_eq_none_iff.1 hnone
      · exact hnone
    | _ => exact absurd rfl hop

/-- Where loan `id` is not one of those the call locks or clears. -/
theorem LockEffect.elsewhere {s t : Store} {id : Nat} (h : LockEffect s t)
    (hlocks : ∀ loan, s.book.loanCounter < id → t.book.loan id = some loan → False)
    (hclears : ∀ loan, t.book.loan id = some loan → loan.status ≠ .repaid) : t.locked id = s.locked id := by
  cases h with
  | kept h => rw [h]
  | @locked loan _ hid hloan _ h =>
    rw [h, update_of_ne]
    rintro rfl
    exact hlocks loan hid hloan
  | @cleared id' loan hloan hst h =>
    rw [h, update_of_ne]
    rintro rfl
    exact hclears loan hloan hst

theorem AsDisbursed.call {h : List (State × Move)} {s : State} {c : Call} {t : Store} {id : Nat} (hr : History h s)
    (hi : AsDisbursed h s.store id) (hd : exec c s = .ok t) : AsDisbursed ((s, .call c) :: h) t id := by
  have hlock := lockEffect_of hd
  have hmoves := LoanBook.RecordsMove.effect hr.keyed (effect_of hd)
  refine ⟨fun hnone => ?_, fun new hnew => ?_⟩
  · have hnone' := Effect.loan_none hr.keyed (effect_of hd) hnone
    obtain ⟨hunrecorded, hempty⟩ := hi.unissued hnone'
    rw [disbursement_call hd hunrecorded, hnone]
    refine ⟨rfl, ?_⟩
    rw [hlock.elsewhere (fun loan _ hloan => by rw [hnone] at hloan; cases hloan)
      (fun loan hloan => by rw [hnone] at hloan; cases hloan), hempty]
  · rcases hmoves id new hnew with ⟨old, ho, hm⟩ | ⟨hnone, hfresh⟩
    · obtain ⟨d, hrecorded, htotal, hlocked, hadds⟩ := hi.issued old ho
      refine ⟨d, disbursement_old hrecorded, hm.totalYield.trans htotal, fun hactive => ?_, hadds⟩
      rw [hlock.elsewhere (fun loan hid _ => ?_) (fun loan hloan hst => ?_), hlocked (hm.active hactive)]
      · have := (hr.keyed.stored ho).2
        omega
      · rw [hnew] at hloan
        cases hloan
        rw [hactive] at hst
        cases hst
    · obtain ⟨hunrecorded, hempty⟩ := hi.unissued hnone
      have hdisb : disbursement id ((s, .call c) :: h) = some ⟨new, t.locked id⟩ := by
        rw [disbursement_call hd hunrecorded, hnew]
        rfl
      refine ⟨⟨new, t.locked id⟩, hdisb, rfl, fun _ => rfl, ?_⟩
      cases hlock with
      | kept h => exact .inl (by rw [h, hempty])
      | @locked loan entries _ hloan hsum h =>
        by_cases hid : id = loan.id
        · subst hid
          rw [hnew] at hloan
          cases hloan
          exact .inr (by rw [h, update_self, hsum])
        · exact .inl (by rw [h, update_of_ne hid, hempty])
      | @cleared id' loan hloan hst h =>
        by_cases hid : id = id'
        · exact .inl (by rw [h, hid, update_self])
        · exact .inl (by rw [h, update_of_ne hid, hempty])

theorem History.asDisbursed {h s} (hr : History h s) (id : Nat) : AsDisbursed h s.store id := by
  refine History.inv (p := fun _ _ => True) (I := fun h s => AsDisbursed h s.store id)
    (fun _ _ => ⟨fun _ => ⟨rfl, rfl⟩, fun _ hl => by cases hl⟩) (fun hr hi hd _ => hi.call hr hd)
    (fun hi he => ?_) (fun hi _ _ => ?_) hr (along_true h)
  · exact ⟨fun hnone => by rw [disbursement_other (done_error he)]; exact hi.unissued hnone,
      fun loan hl => by rw [disbursement_other (done_error he)]; exact hi.issued loan hl⟩
  · exact ⟨fun hnone => by rw [disbursement_other rfl]; exact hi.unissued hnone,
      fun loan hl => by rw [disbursement_other rfl]; exact hi.issued loan hl⟩

/-! ## What the vouchers are paid -/

/-- One entry counts at most once among distinct vouchers. -/
theorem sum_ite_le {a : Int} {f : Address → Int} {u : Address} (ha : 0 ≤ a) (hf : ∀ v, 0 ≤ f v)
    {vouchers : List Address}
    (hnodup : vouchers.Nodup) :
    (vouchers.map fun v => if u = v then a else f v).sum ≤ a + (vouchers.map f).sum := by
  induction vouchers with
  | nil => simpa using ha
  | cons v vs ih =>
    obtain ⟨hv, hvs⟩ := List.nodup_cons.1 hnodup
    rw [List.map_cons, List.sum_cons, List.map_cons, List.sum_cons]
    by_cases huv : u = v
    · have hrest : (vs.map fun v => if u = v then a else f v) = vs.map f := by
        refine List.map_congr_left fun v' hv' => if_neg ?_
        rintro rfl
        exact hv (huv ▸ hv')
      rw [if_pos huv, hrest]
      have := hf v
      omega
    · rw [if_neg huv]
      have := ih hvs
      omega

theorem yieldOf_cons (e : YieldDistributionEntry) (dist : List YieldDistributionEntry) (voucher : Address) :
    yieldOf (e :: dist) voucher = if e.voucher = voucher then e.yieldAmount else yieldOf dist voucher := by
  unfold yieldOf
  by_cases he : e.voucher = voucher
  · rw [List.find?_cons_of_pos (by simpa using he), if_pos he]
    rfl
  · rw [List.find?_cons_of_neg (by simpa using he), if_neg he]

theorem yieldOf_nonneg {dist : List YieldDistributionEntry} (h : ∀ e ∈ dist, 0 ≤ e.yieldAmount) (voucher : Address) :
    0 ≤ yieldOf dist voucher := by
  induction dist with
  | nil => exact le_rfl
  | cons e dist ih =>
    rw [List.forall_mem_cons] at h
    rw [yieldOf_cons]
    split
    · exact h.1
    · exact ih h.2

/-- Distinct vouchers are paid at most the whole distribution. -/
theorem yieldOf_sum_le {dist : List YieldDistributionEntry} (h : ∀ e ∈ dist, 0 ≤ e.yieldAmount)
    {vouchers : List Address}
    (hnodup : vouchers.Nodup) : (vouchers.map (yieldOf dist)).sum ≤ yieldSum dist := by
  induction dist with
  | nil =>
    have hzero : vouchers.map (yieldOf []) = vouchers.map fun _ => (0 : Int) := rfl
    simp [hzero, yieldSum]
  | cons e dist ih =>
    rw [List.forall_mem_cons] at h
    have hcons : yieldOf (e :: dist) = fun v => if e.voucher = v then e.yieldAmount else yieldOf dist v :=
      funext (yieldOf_cons e dist)
    calc (vouchers.map (yieldOf (e :: dist))).sum
        ≤ e.yieldAmount + (vouchers.map (yieldOf dist)).sum := by
          rw [hcons]
          exact sum_ite_le h.1 (yieldOf_nonneg h.2) hnodup
      _ ≤ e.yieldAmount + yieldSum dist := by
          have := ih h.2
          omega

/-- In one token, no voucher has two records. -/
theorem WellFormed.vouchers_nodup {vouches : List VouchRecord} (h : WellFormed vouches) (token : Address) :
    ((inToken token vouches).map (·.voucher)).Nodup := by
  have hkeys := (h.sublist (List.filter_sublist (p := fun v => v.token = token))).distinct
  change ((inToken token vouches).map VouchRecord.key).Nodup at hkeys
  rw [List.Nodup, List.pairwise_map] at hkeys ⊢
  refine hkeys.imp_of_mem fun hu hv hne heq => hne ?_
  have htoken : ∀ {v}, v ∈ inToken token vouches → v.token = token := fun hv => by simpa using (List.mem_filter.1 hv).2
  exact Prod.ext heq ((htoken hu).trans (htoken hv).symm)

/-- What the settlement of a loan pays for a record: its stake, the yield locked
in for its voucher, and the bonus of the liquidity tier. -/
def duePayout (w : World) (token : Address) (dist : List YieldDistributionEntry) (v : VouchRecord) : Int :=
  v.stake + yieldOf dist v.voucher + tierExtra w token v

/-- The transfers to the vouchers when a loan is settled. -/
def duePayouts (w : World) (token : Address) (dist : List YieldDistributionEntry) (settled : List VouchRecord) :
    List (Transfer Address Address) :=
  settled.filterMap fun v =>
    if 0 < duePayout w token dist v then some (w.payment token v.voucher (duePayout w token dist v)) else none

/-- Without a penalty there are no shares of it. -/
theorem payouts_zero (w : World) (token : Address) (dist : List YieldDistributionEntry) (total : Int)
    (settled : List VouchRecord) : payouts w token dist 0 total settled = duePayouts w token dist settled := by
  have hshare : ∀ v, penaltyShare 0 total v = 0 := by
    intro v
    unfold penaltyShare
    rw [Int.zero_mul, Int.zero_tdiv, ite_self]
  unfold payouts duePayouts payoutOf duePayout
  simp only [hshare, Int.add_zero]

/-- The transfers of a call that completes an active loan: the payment, the
queue, the vouchers, and at most a bonus to the borrower. -/
theorem repay_transfers {s : State} {signers : List Address} {b : Address} {payment : Int} {loan : LoanRecord}
    {t : Store}
    (ho : s.store.book.loanToRepay b = some loan) (hactive : loan.status = .active) (hs : loan.Solid)
    (hd : exec ⟨signers, .repay b payment⟩ s = .ok t) (hall : payment = loan.outstandingAt s.world.now) :
    ∃ bonus, (∀ x ∈ bonus, x.dst = b) ∧ t.bank.log = bonus ++
      (duePayouts s.world loan.tokenAddress (s.store.locked loan.id)
        (s.store.vault.settledRecords loan.tokenAddress b)).reverse ++
      (s.store.vault.queueTransfers s.world b).reverse ++ ⟨loan.tokenAddress, b, s.world.contract, payment⟩ ::
        s.store.bank.log := by
  have hgoes : Goes (repay b payment) ⟨s.world, signers⟩ s.store fun _ t' => t'.vault = t.vault :=
    (goes_of_exec hd).mono fun _ _ h => congrArg Store.vault h
  obtain ⟨-, -, hto⟩ := (goes_repay_open ho (by rw [hactive]; decide) hs fun x => x = t.vault).1 hgoes
  obtain ⟨-, hsettled⟩ := hto.completes hall
  have htoken : (loan.paidAt s.world.now payment).tokenAddress = loan.tokenAddress := accrueInterest_token _ _
  generalize loan.paidAt s.world.now payment = paid at hsettled htoken
  have hbonus : ∀ bank, ∀ x ∈ (bonusTransfers s.world paid b bank).reverse, x.dst = b := by
    intro bank x hx
    rw [List.mem_reverse, bonusTransfers] at hx
    split at hx
    · rw [List.mem_singleton.1 hx]
      rfl
    · cases hx
  refine ⟨_, hbonus ((s.store.vault.takes s.world loan b payment).paidOut s.world paid b (s.store.locked loan.id)
    0), ?_⟩
  have hbank : t.bank = t.vault.bank := rfl
  rw [hbank, ← hsettled]
  simp only [Vault.settled, Bank.moves_log]
  have hpaidOut : ((s.store.vault.takes s.world loan b payment).paidOut s.world paid b (s.store.locked loan.id) 0).log =
      (duePayouts s.world loan.tokenAddress (s.store.locked loan.id)
        (s.store.vault.settledRecords loan.tokenAddress b)).reverse ++
          (s.store.vault.queueTransfers s.world b).reverse ++
          ⟨loan.tokenAddress, b, s.world.contract, payment⟩ :: s.store.bank.log := by
    rw [Vault.paidOut, Bank.moves_log, Vault.drained_bank, Bank.moves_log, Vault.voucherPayouts, payouts_zero, htoken,
      List.append_assoc]
    rfl
  rw [hpaidOut, List.append_assoc, List.append_assoc]
  simp only [List.append_assoc]

theorem applySlashRecovery_log (b : Address) (ctx : Context) (s : Store) :
    Yields (applySlashRecovery b) ctx s fun _ t => ∃ recovered : List (Transfer Address Address),
      (∀ x ∈ recovered, x.dst = b) ∧ t.bank.log = recovered ++ s.bank.log := by
  simp only [applySlashRecovery, yields_steps]
  have hnone : ∃ recovered : List (Transfer Address Address),
      (∀ x ∈ recovered, x.dst = b) ∧ s.bank.log = recovered ++ s.bank.log := ⟨[], List.forall_mem_nil _, rfl⟩
  split
  case h_1 => exact (yields_pure _ _ _ _).2 hnone
  case h_2 record haudit =>
    simp only [deductSlashBalance, saveAudit, yields_ite, yields_steps, yields_i128, yields_requireAllowedToken,
      yields_parts, yields_pay]
    refine ⟨fun _ => hnone, fun _ _ => ⟨fun _ => hnone, fun _ => ?_⟩⟩
    intro _ _ loan _ _ _ _
    exact ⟨[⟨loan.tokenAddress, ctx.contract, b, _⟩], List.forall_mem_singleton.2 rfl, rfl⟩

/-- A defaulted loan that is repaid pays no voucher. -/
theorem repay_defaulted_transfers {s : State} {signers : List Address} {b : Address} {payment : Int} {loan : LoanRecord}
    {t : Store} (ho : s.store.book.loanToRepay b = some loan) (hdefaulted : loan.status = .defaulted)
    (hd : exec ⟨signers, .repay b payment⟩ s = .ok t) :
    ∃ recovered : List (Transfer Address Address), (∀ x ∈ recovered, x.dst = b) ∧
      t.bank.log = recovered ++ ⟨loan.tokenAddress, b, s.world.contract, payment⟩ :: s.store.bank.log := by
  have hyields : Yields (repay b payment) ⟨s.world, signers⟩ s.store fun _ t =>
      ∃ recovered : List (Transfer Address Address), (∀ x ∈ recovered, x.dst = b) ∧
        t.bank.log = recovered ++ ⟨loan.tokenAddress, b, s.world.contract, payment⟩ :: s.store.bank.log := by
    simp only [repay_eq, yields_steps]
    refine yields_keeps₂ Store.book Store.vault fun _ s₁ hbook hvault => ?_
    refine (takePayment_outcome (hbook ▸ ho) payment ⟨s.world, signers⟩).mono ?_
    rintro taken s₂ ⟨rfl, hvault₂, -⟩
    have hlog : s₂.bank.log = ⟨loan.tokenAddress, b, s.world.contract, payment⟩ :: s.store.bank.log := by
      change s₂.vault.bank.log = _
      rw [hvault₂, hvault]
      rfl
    simp only [hdefaulted, settlePayment, yields_steps, decide_true, if_true]
    refine yields_keeps Store.vault fun penalty s₃ hvault₃ => ?_
    have hlog₃ : s₃.bank.log = s₂.bank.log := congrArg (fun x : Vault => x.bank.log) hvault₃
    refine (yields_ite _ _ _ _ _ _).2 ⟨fun _ => ?_, fun _ => ?_⟩
    · simp only [yields_bind]
      refine (applySlashRecovery_log b _ s₃).mono ?_
      rintro - s₄ ⟨recovered, hdst, hlog₄⟩
      refine yields_keeps Store.vault fun _ s₅ hvault₅ => yields_keeps Store.vault fun _ t hvault => ?_
      refine ⟨recovered, hdst, ?_⟩
      have hlog₅ : t.bank.log = s₄.bank.log := congrArg (fun x : Vault => x.bank.log) (hvault.trans hvault₅)
      rw [hlog₅, hlog₄, hlog₃, hlog]
    · refine yields_keeps Store.vault fun _ s₅ hvault₅ => yields_keeps Store.vault fun _ t hvault => ?_
      refine ⟨[], List.forall_mem_nil _, ?_⟩
      have hlog₅ : t.bank.log = s₃.bank.log := congrArg (fun x : Vault => x.bank.log) (hvault.trans hvault₅)
      rw [hlog₅, hlog₃, hlog, List.nil_append]
  exact yields_exec (c := ⟨signers, .repay b payment⟩) hyields hd

/-- An active loan to repay is the one its borrower's pointer leads to. -/
theorem active_of_loanToRepay {k : LoanBook} {b : Address} {loan : LoanRecord} (ho : k.loanToRepay b = some loan)
    (hactive : loan.status = .active) : k.getActiveLoanRecord b = some loan := by
  unfold LoanBook.loanToRepay at ho
  split at ho
  case h_1 found hfound => rw [hfound, ho]
  case h_2 =>
    split at ho
    case h_1 latest _ =>
      split at ho
      case isTrue hst =>
        cases ho
        rw [hactive] at hst
        cases hst
      case isFalse => cases ho
    case h_2 => cases ho

/-- The transfers of a final repayment on `loan`, and the yields it pays, against what its disbursement `d` recorded. -/
structure PaysWithin (s : State) (b : Address) (payment : Int) (loan : LoanRecord) (d : Disbursement)
    (t : Store) : Prop where
  transfers : loan.status = .active → ∃ bonus, (∀ x ∈ bonus, x.dst = b) ∧ t.bank.log = bonus ++
    (duePayouts s.world loan.tokenAddress d.dist (s.store.vault.settledRecords loan.tokenAddress b)).reverse ++
    (s.store.vault.queueTransfers s.world b).reverse ++ ⟨loan.tokenAddress, b, s.world.contract, payment⟩ ::
      s.store.bank.log
  once : ((s.store.vault.settledRecords loan.tokenAddress b).map (·.voucher)).Nodup
  yields : d.Nonneg →
    ((s.store.vault.settledRecords loan.tokenAddress b).map fun v => yieldOf d.dist v.voucher).sum ≤ d.loan.totalYield
  defaulted : loan.status = .defaulted → ∃ recovered : List (Transfer Address Address), (∀ x ∈ recovered, x.dst = b) ∧
    t.bank.log = recovered ++ ⟨loan.tokenAddress, b, s.world.contract, payment⟩ :: s.store.bank.log

/-- Whatever happened to the vouches since a loan was disbursed, the call of
`repay` that completes it pays each voucher once, out of the distribution then
recorded, and in sum at most the yield the loan was disbursed with. -/
theorem yields_paid_within_total {h s} (hr : History h s) {signers : List Address} {b : Address} {payment : Int}
    {t : Store}
    (hd : exec ⟨signers, .repay b payment⟩ s = .ok t) {loan new : LoanRecord}
    (ho : s.store.book.loanToRepay b = some loan) (hnew : t.book.loan loan.id = some new)
      (hrepaid : new.status = .repaid) :
    ∃ d, disbursement loan.id h = some d ∧ PaysWithin s b payment loan d t := by
  obtain ⟨hl, -⟩ := hr.keyed.loan_to_repay ho
  obtain ⟨d, hrecorded, -, hlocked, hadds⟩ := (hr.asDisbursed loan.id).issued loan hl
  have hwell : WellFormed (s.store.records b) := Reachable.wellFormed ⟨h, hr⟩ b
  have honce : ((s.store.vault.settledRecords loan.tokenAddress b).map (·.voucher)).Nodup :=
    (hwell.sublist (s.store.vault.unqueued_sublist b)).vouchers_nodup loan.tokenAddress
  refine ⟨d, hrecorded, fun hactive => ?_, honce, fun hnonneg => ?_, fun hdefaulted => ?_⟩
  · have hall : payment = loan.outstandingAt s.world.now := by
      rcases after_repay ⟨h, hr⟩ (active_of_loanToRepay ho hactive) hactive hd with ⟨-, still, hstill⟩ | ⟨hall, -⟩
      · obtain rfl := Option.some.inj (hnew.symm.trans hstill.stored)
        have hopen := hstill.active
        rw [hrepaid] at hopen
        cases hopen
      · exact hall
    rw [← hlocked hactive]
    exact repay_transfers ho hactive (hr.solid _ _ hl) hd hall
  · have hsum : (((s.store.vault.settledRecords loan.tokenAddress b).map (·.voucher)).map (yieldOf d.dist)).sum ≤
        yieldSum d.dist := yieldOf_sum_le hnonneg.shares honce
    rw [List.map_map] at hsum
    refine hsum.trans ?_
    rcases hadds with hnone | hadds
    · rw [hnone]
      exact hnonneg.total
    · exact hadds.le
  · exact repay_defaulted_transfers ho hdefaulted hd

/-- The requested loan, repaid at once: the only voucher is paid its stake and the whole yield. -/
theorem yields_paid_within_total_requested :
    let s := start.play requestedLoan
    let t := (s.after ⟨[10], .repay 10 510000⟩).store
    s.store.vault.settledRecords 100 10 ≠ [] ∧
      ∃ d, disbursement 2 (start.trace [] requestedLoan) = some d ∧ ∀ loan, s.store.book.loanToRepay 10 = some loan →
        PaysWithin s 10 510000 loan d t := by
  intro s t
  have hloan : (s.store.book.loanToRepay 10).any (fun loan => loan.id = 2) = true := by decide +kernel
  have hclosed : (t.book.loan 2).any (fun new => new.status = .repaid) = true := by decide +kernel
  have hd : exec ⟨[10], .repay 10 510000⟩ s = .ok t := exec_after (by decide +kernel)
  refine ⟨by decide +kernel, ?_⟩
  generalize t = t' at hclosed hd
  obtain ⟨loan, ho, hid⟩ := (Option.any_eq_true _ _).1 hloan
  obtain ⟨new, hnew, hrepaid⟩ := (Option.any_eq_true _ _).1 hclosed
  have hid : loan.id = 2 := of_decide_eq_true hid
  obtain ⟨d, hrecorded, hpays⟩ := yields_paid_within_total (start_history requestedLoan) hd ho (hid ▸ hnew)
    (of_decide_eq_true hrepaid)
  refine ⟨d, hid ▸ hrecorded, fun loan' ho' => ?_⟩
  obtain rfl := Option.some.inj (ho.symm.trans ho')
  exact hpays

/-- The loan's token is in a liquidity tier that earns 50 basis points on the stake. -/
def tieredWorld : World := { sampleWorld with tokenLiquidityTier := fun _ => 1 }

/-- The requested loan, while another borrower is vouched for. -/
def tieredLoan : List Act := .call [3] (.vouch 3 11 1000000 100 0) :: requestedLoan

/-- The borrower's credit tier takes 250 basis points off every yield. -/
def penalisedWorld : World := { sampleWorld with tierYieldBonusBps := fun _ => some (-250) }

/-- A vouch of a year's standing and a fresh one, whose owner then withdraws. -/
def penalisedLoan : List Act :=
  [.call [2] (.vouch 2 10 1000000 100 0), .wait 31536000, .call [3] (.vouch 3 10 1000000 100 0),
    .call [1] (.initializeLoanCovenants 2 10000 10000 31536000), .call [10] (.requestLoan 10 1000000 0 "stock" 100),
    .call [3] (.withdrawVouch 3 10)]

/-- The first loan pays its voucher more than the stake, the recorded yield and
the whole yield of the loan: the tier bonus comes on top. The second pays the
older vouch a yield larger than the loan's, since the negative share it was set
off against has left. -/
theorem payout_exceeds_recorded_yield :
    (let s := (genesis tieredWorld sampleBank).play tieredLoan
      let t := (s.after ⟨[10], .repay 10 510000⟩).store
      Reachable s ∧ (exec ⟨[10], .repay 10 510000⟩ s).toBool = true ∧
        (t.book.loan 2).any (fun loan => loan.status = .repaid) = true ∧
        (s.store.records 10).map (fun v => (v.voucher, v.stake)) = [(2, 1000000)] ∧
        1000000 + yieldOf (s.store.locked 2) 2 <
          Bank.sent t.bank.log 100 s.world.contract 2 - Bank.sent s.store.bank.log 100 s.world.contract 2 ∧
        (s.store.book.loan 2).any (fun loan => loan.totalYield <
          Bank.sent t.bank.log 100 s.world.contract 2 - Bank.sent s.store.bank.log 100 s.world.contract 2 - 1000000) =
            true) ∧
    (let s := (genesis penalisedWorld sampleBank).play penalisedLoan
      let t := (s.after ⟨[10], .repay 10 1005000⟩).store
      Reachable s ∧ (exec ⟨[10], .repay 10 1005000⟩ s).toBool = true ∧
        (t.book.loan 2).any (fun loan => loan.status = .repaid) = true ∧
        (s.store.records 10).map (fun v => (v.voucher, v.stake)) = [(2, 1000000)] ∧
        (s.store.book.loan 2).any (fun loan => loan.totalYield <
          Bank.sent t.bank.log 100 s.world.contract 2 - Bank.sent s.store.bank.log 100 s.world.contract 2 - 1000000) =
            true) :=
  ⟨⟨Reachable.script .., by decide +kernel, by decide +kernel, by decide +kernel, by decide +kernel, by decide +kernel⟩,
    Reachable.script .., by decide +kernel, by decide +kernel, by decide +kernel, by decide +kernel⟩

end QuorumCredit
