import QuorumCredit.LoanLife
/-!
# Stake at risk

While a loan is open its vouchers' stakes answer for it: a withdrawal is queued,
not paid. The guard behind that is the status of the borrower's active loan, and
a look at an overdue loan changes the status before anyone has settled the loan.
Without such a look, and without a pool that names the borrower twice, a loan
that is neither repaid nor settled is the borrower's active loan.
-/

open Host Function

namespace QuorumCredit

/-! ## Settled loans -/

/-- The call settles the stakes behind the loan `id` of `b`. -/
def Op.settlesLoan (k : LoanBook) (op : Op) (b : Address) (id : Nat) : Prop :=
  op.settles = some b ∧ ∃ loan, k.getActiveLoanRecord b = some loan ∧ loan.id = id

/-- Some call of the history settled the stakes behind the loan `id` of `b`. -/
def Settled (h : List (State × Move)) (b : Address) (id : Nat) : Prop :=
  Happened (fun s op => op.settlesLoan s.store.book b id) h

namespace LoanBook

/-- A loan of `b` that is neither repaid nor one of those with `P` is active, and the pointer leads to it. -/
def Open (P : Nat → Prop) (k : LoanBook) (b : Address) : Prop :=
  ∀ id loan, k.loan id = some loan → loan.borrower = b → loan.status ≠ .repaid → ¬ P id →
    loan.status = .active ∧ k.activeLoan b = some id

/-- Every loan of `b` is repaid or one of those with `P`. -/
def Cleared (P : Nat → Prop) (k : LoanBook) (b : Address) : Prop :=
  ∀ id loan, k.loan id = some loan → loan.borrower = b → loan.status ≠ .repaid → P id

variable {P Q : Nat → Prop} {k k' : LoanBook} {b borrower : Address}

theorem Open.mono (h : k.Open P b) (hpq : ∀ id, P id → Q id) : k.Open Q b :=
  fun id loan hl hb hs hq => h id loan hl hb hs fun hp => hq (hpq id hp)

theorem Open.congr (h : k.Open P b) (hl : k'.loan = k.loan) (ha : k'.activeLoan b = k.activeLoan b) : k'.Open P b := by
  intro id loan hloan hb hs hp
  rw [hl] at hloan
  rw [ha]
  exact h id loan hloan hb hs hp

theorem Open.cleared (h : k.Open P b) (hidle : k.hasActiveLoan b = false) : k.Cleared P b := by
  intro id loan hl hb hs
  by_contra hp
  obtain ⟨hactive, hptr⟩ := h id loan hl hb hs hp
  have hhas : k.hasActiveLoan b = true := by
    refine hasActiveLoan_iff.2 ⟨loan, ?_, hactive⟩
    rw [getActiveLoanRecord, hptr]
    exact hl
  rw [hidle] at hhas
  cases hhas

/-- A record of `b` stored anew is repaid, one of those with `P`, or keeps its status. -/
theorem Open.setLoan (h : k.Open P b) {id : Nat} {old new : LoanRecord} (ho : k.loan id = some old)
    (hb : new.borrower = old.borrower)
    (hs : old.borrower = b → new.status = .repaid ∨ P id ∨ new.status = old.status) : (k.setLoan id new).Open P b := by
  intro i loan hl hborrower hst hp
  rcases setLoan_cases hl with ⟨rfl, rfl⟩ | ⟨-, hl⟩
  · rw [hb] at hborrower
    rcases hs hborrower with h' | h' | h'
    · exact absurd h' hst
    · exact absurd h' hp
    · rw [h'] at hst ⊢
      exact h i old ho hborrower hst hp
  · exact h i loan hl hborrower hst hp

/-- Once the loan the pointer leads to is repaid or one of those with `P`, all are. -/
theorem Open.cleared_of_setLoan (h : k.Open P b) {id : Nat} {new : LoanRecord} (ha : k.activeLoan b = some id)
    (hs : new.status = .repaid ∨ P id) : (k.setLoan id new).Cleared P b := by
  intro i loan hl hborrower hst
  rcases setLoan_cases hl with ⟨rfl, rfl⟩ | ⟨hi, hl⟩
  · exact hs.resolve_left hst
  · by_contra hp
    have hptr := (h i loan hl hborrower hst hp).2
    rw [ha] at hptr
    exact hi (Option.some.inj hptr).symm

/-- Settling the loan `borrower`'s pointer leads to, and taking the pointer away. -/
theorem Open.settle (h : k.Open P b) {id : Nat} {old new : LoanRecord} (ho : k.loan id = some old)
    (ha : k.activeLoan borrower = some id) (hborrower : old.borrower = borrower) (hb : new.borrower = old.borrower)
    (hs : borrower = b → new.status = .repaid ∨ P id) : ((k.setLoan id new).setActiveLoan borrower none).Open P b := by
  by_cases hne : borrower = b
  · subst hne
    intro i loan hl hloan hst hp
    exact absurd (h.cleared_of_setLoan ha (hs rfl) i loan hl hloan hst) hp
  · have hset : (k.setLoan id new).Open P b :=
      h.setLoan ho hb fun hold => absurd (hborrower.symm.trans hold) hne
    exact hset.congr rfl (update_of_ne (Ne.symm hne) ..)

theorem Open.issue (h : k.Open P b) (n : Nat) {loan : LoanRecord} (hc : loan.borrower = b → k.Cleared P b)
    (hactive : loan.status = .active) : ((k.takeIds n).issue loan).Open P b := by
  intro i l hl hborrower hst hp
  rcases issue_cases hl with ⟨rfl, rfl⟩ | ⟨-, hl⟩
  · rw [← hborrower]
    exact ⟨hactive, update_self ..⟩
  · have hne : b ≠ loan.borrower := fun hb => hp (hc hb.symm i l hl hborrower hst)
    rw [issue_activeLoan, update_of_ne hne]
    exact h i l hl hborrower hst hp

theorem Cleared.issue (h : k.Cleared P b) (n : Nat) {loan : LoanRecord} (hne : loan.borrower ≠ b) :
    ((k.takeIds n).issue loan).Cleared P b := by
  intro i l hl hborrower hst
  rcases issue_cases hl with ⟨-, rfl⟩ | ⟨-, hl⟩
  · exact absurd hborrower hne
  · exact h i l hl hborrower hst

theorem Open.pool {token : Address} {pool : List (Address × Int)} (he : PoolEffect token k pool k') (h : k.Open P b)
    (hc : (∃ e ∈ pool, e.1 = b) → k.Cleared P b) (hd : (pool.map Prod.fst).count b ≤ 1) : k'.Open P b := by
  induction he with
  | nil => exact h
  | @cons k borrower amount loan rest k' hf _ _ _ ih =>
    have hissued : ((k.takeIds 1).issue loan).Open P b := by
      refine h.issue 1 (fun hb => hc ⟨_, List.mem_cons_self, ?_⟩) hf.status
      rw [← hf.borrower, hb]
    refine ih hissued (fun hrest => ?_) ?_
    · have hne : borrower ≠ b := by
        rintro rfl
        obtain ⟨e, he, heb⟩ := hrest
        have hpos : 0 < (rest.map Prod.fst).count borrower := List.count_pos_iff.2 (List.mem_map.2 ⟨e, he, heb⟩)
        rw [List.map_cons, List.count_cons_self] at hd
        omega
      obtain ⟨e, he, heb⟩ := hrest
      exact (hc ⟨e, List.mem_cons_of_mem _ he, heb⟩).issue 1 (hf.borrower ▸ hne)
    · rw [List.map_cons, List.count_cons] at hd
      omega

/-- Looks at overdue loans of `b` that the pointer does not lead to. -/
theorem Open.markAll (hk : k.Keyed) (h : k.Open P b) (now : Nat) (ids : List Nat)
    (hspare : ∀ loan, k.getActiveLoanRecord b = some loan → loan.id ∈ ids → isLoanDefaulted now loan = false) :
    (k.markAll now ids).Open P b := by
  intro id loan' hl hborrower hst hp
  rw [markAll_activeLoan]
  rw [markAll_loan] at hl
  split at hl
  case isFalse => exact h id loan' hl hborrower hst hp
  case isTrue hmem =>
    obtain ⟨loan, hloan, rfl⟩ := Option.map_eq_some_iff.1 hl
    by_cases hd : isLoanDefaulted now loan = true
    · -- an overdue loan is active, so the pointer leads to it
      have hb : loan.borrower = b := by rwa [markRecord, if_pos hd] at hborrower
      have hactive := isLoanDefaulted_active hd
      obtain ⟨-, hptr⟩ := h id loan hloan hb (by simp [hactive]) hp
      have hrecord : k.getActiveLoanRecord b = some loan := by rw [getActiveLoanRecord, hptr]; exact hloan
      rw [hspare loan hrecord ((hk.stored hloan).1 ▸ hmem)] at hd
      cases hd
    · rw [markRecord, if_neg hd] at hborrower hst ⊢
      exact h id loan hloan hborrower hst hp

end LoanBook

/-- The call marks no loan the pointer of `b` leads to, and is no pool that names `b` twice. -/
structure Op.spares (w : World) (k : LoanBook) (b : Address) (op : Op) : Prop where
  unmarked : ∀ loan, k.getActiveLoanRecord b = some loan → loan.id ∈ op.looksAt w k → isLoanDefaulted w.now loan = false
  once : op.issuesTo.count b ≤ 1

theorem Op.spares_of_none {w : World} {k : LoanBook} {b : Address} {op : Op} (h : k.getActiveLoanRecord b = none)
    (hc : op.issuesTo.count b ≤ 1) : op.spares w k b :=
  ⟨fun loan hl => (by rw [h] at hl; cases hl), hc⟩

/-- What stays open after a call that spares the borrower's loan. -/
theorem LoanBook.Open.effect {P : Nat → Prop} {k k' : LoanBook} {b : Address} {w : World} {op : Op} (h : k.Open P b)
    (hk : k.Keyed) (he : Effect w k op k') (hop : op.spares w k b) :
    k'.Open (fun id => P id ∨ op.settlesLoan k b id) b := by
  have hmono : ∀ id, P id → P id ∨ op.settlesLoan k b id := fun _ => .inl
  have hQ := h.mono hmono
  -- the loan that a settling call finds is one it settles
  have hsettled : ∀ {borrower : Address} {loan : LoanRecord}, op.settles = some borrower →
      k.getActiveLoanRecord borrower = some loan → borrower = b → P loan.id ∨ op.settlesLoan k b loan.id := by
    rintro borrower loan hset hloan rfl
    exact .inr ⟨hset, loan, hloan, rfl⟩
  cases he with
  | looked _ => exact hQ.markAll hk w.now _ hop.unmarked
  | @requested borrower amount threshold purpose token loan hidle hf _ _ =>
    have hmarked := hQ.markAll hk w.now _ hop.unmarked
    obtain ⟨ids, hopen⟩ := LoanBook.openLoan_eq ((k.markAll w.now (k.borrowerLoanIds borrower)).takeIds 2) loan
    rw [hopen]
    refine (hmarked.issue 2 (fun hb => hmarked.cleared ?_) hf.status).congr rfl rfl
    rw [← hb, hf.borrower]
    exact hidle
  | paid ho hs hst _ _ =>
    exact hQ.setLoan (hs.id ▸ (hk.loan_to_repay ho).1) hs.borrower fun _ => .inr (.inr hst)
  | recovered ho _ hs hst _ _ => exact hQ.setLoan (hs.id ▸ (hk.loan_to_repay ho).1) hs.borrower fun _ => .inl hst
  | closed ho hd hs hst _ _ =>
    obtain ⟨hl, hb, hptr⟩ := hk.loan_to_repay ho
    have hptr := hptr.resolve_right fun h => hd h.2
    exact (hQ.settle (hs.id ▸ hl) (hs.id ▸ hptr) hb hs.borrower fun _ => .inl hst).congr rfl rfl
  | paidPartial ho hs hst _ _ =>
    exact hQ.setLoan (hs.id ▸ (hk.active_record ho).2.1) hs.borrower fun _ => .inr (.inr hst)
  | @refinanced borrower amount threshold token old new loan ho hs hst _ _ hf _ _ =>
    obtain ⟨hptr, hl, hb⟩ := hk.active_record ho
    refine (hQ.settle (hs.id ▸ hl) (hs.id ▸ hptr) hb hs.borrower fun _ => .inl hst).issue 1 (fun hb' => ?_) hf.status
    rw [hf.borrower] at hb'
    subst hb'
    exact fun i l hi => hQ.cleared_of_setLoan (hs.id ▸ hptr) (.inl hst) i l hi
  | @pooled signers borrowers amounts k' hlen hidle hpool =>
    refine LoanBook.Open.pool hpool hQ (fun he => ?_) ?_
    · obtain ⟨e, he, rfl⟩ := he
      exact hQ.cleared (hidle _ (List.of_mem_zip he).1)
    · rw [List.map_fst_zip hlen.le]
      exact hop.once
  | @slashed _ borrower loan ho _ | @claimed borrower loan ho _ _ =>
    obtain ⟨hptr, hl, hb⟩ := hk.active_record ho
    have hset : ((k.setLoan loan.id { loan with defaulted := true }).setActiveLoan borrower none).Open _ b :=
      hQ.settle hl hptr hb rfl fun hb => .inr (hsettled rfl ho hb)
    exact hset.congr rfl rfl
  | autoSlashed _ _ => exact hQ
  | @executedVote borrower loan ho _ | @executedPending borrower loan ho _ =>
    obtain ⟨hptr, hl, hb⟩ := hk.active_record ho
    have hset : ((k.setLoan loan.id { loan with status := .defaulted }).setActiveLoan borrower none).Open _ b :=
      hQ.settle hl hptr hb rfl fun hb => .inr (hsettled rfl ho hb)
    exact hset.congr rfl rfl

theorem History.open {h s} (hr : History h s) (b : Address)
    (hok : Along (WhenDone fun s op => op.spares s.world s.store.book b) h) : s.store.book.Open (Settled h b) b := by
  refine History.inv (I := fun h s => s.store.book.Open (Settled h b) b) (fun _ _ _ _ hl => nomatch hl)
    (fun {h s c t} hr hi hd hp => ?_) (fun {h s c e} hi he => ?_) (fun {h s _ _ _} hi _ _ => ?_) hr hok
  · exact (hi.effect hr.keyed (effect_of hd) hp).mono fun id hid => (happened_call hd).2 hid
  · refine hi.mono fun id hid => (happened_other fun c' t hc ht => ?_).2 hid
    cases hc
    rw [he] at ht
    cases ht
  · refine LoanBook.Open.mono hi fun id hid => (happened_other fun c' t hc _ => ?_).2 hid
    cases hc

/-! ## Withdrawals -/

/-- The call withdraws stake behind `b`: `decrease_stake` or `withdraw_vouch`. -/
def Op.withdraws : Op → Option Address
  | .decreaseStake _ b _ | .withdrawVouch _ b => some b
  | _ => none

/-- The loan `id` of `b` is past its deadline and neither repaid nor settled. -/
structure Outstanding (h : List (State × Move)) (s : State) (b : Address) (id : Nat) (loan : LoanRecord) : Prop where
  stored : s.store.book.loan id = some loan
  borrower : loan.borrower = b
  late : loan.deadline < s.world.now
  unpaid : loan.status ≠ .repaid
  unsettled : ¬ Settled h b id

/-! ## The money -/

section Calls

variable {ctx : Context} {s : Store} {b : Address}

/-- With an active loan behind it, a decrease moves no money. -/
theorem decreaseStake_queued (voucher : Address) (amount : Int) (h : s.book.hasActiveLoan b = true) :
    Yields (decreaseStake voucher b amount) ctx s fun _ t => t.bank = s.bank := by
  unfold decreaseStake
  simp only [yields_steps, yields_requirePositiveAmount, yields_ite]
  refine yields_keeps₂ Store.book Store.bank fun _ s₁ h₁ h₁' => ?_
  refine yields_keeps₂ Store.book Store.bank fun _ s₂ h₂ h₂' _ => ?_
  refine yields_keeps₂ Store.book Store.bank fun v s₃ h₃ h₃' _ => ?_
  have hbook : s₃.book = s.book := by rw [h₃, h₂, h₁]
  refine ⟨fun _ => ?_, fun hno => absurd (hbook ▸ h) hno⟩
  refine yields_keeps Store.bank fun _ s₄ h₄ => ?_
  refine yields_keeps Store.bank fun _ t ht => ?_
  rw [ht, h₄, h₃', h₂', h₁']

/-- With an active loan behind it, a withdrawal moves no money. -/
theorem withdrawVouch_queued (voucher : Address) (h : s.book.hasActiveLoan b = true) :
    Yields (withdrawVouch voucher b) ctx s fun _ t => t.bank = s.bank := by
  unfold withdrawVouch
  simp only [yields_steps, yields_ite]
  refine yields_keeps₂ Store.book Store.bank fun _ s₁ h₁ h₁' => ?_
  refine yields_keeps₂ Store.book Store.bank fun _ s₂ h₂ h₂' => ?_
  refine yields_keeps₂ Store.book Store.bank fun v s₃ h₃ h₃' => ?_
  have hbook : s₃.book = s.book := by rw [h₃, h₂, h₁]
  refine ⟨fun _ => ?_, fun hno => absurd (hbook ▸ h) hno⟩
  refine yields_keeps Store.bank fun _ s₄ h₄ => ?_
  refine yields_keeps Store.bank fun _ t ht => ?_
  rw [ht, h₄, h₃', h₂', h₁']

theorem withdraws_queued {op : Op} (hop : op.withdraws = some b) (h : s.book.hasActiveLoan b = true) :
    Yields (dispatch op) ctx s fun _ t => t.bank = s.bank := by
  cases op <;> cases hop
  case decreaseStake voucher amount => exact decreaseStake_queued voucher amount h
  case withdrawVouch voucher => exact withdrawVouch_queued voucher h

end Calls

/-- In every run in which no call marks the loan `b`'s pointer leads to and no pool
names `b` twice, a withdrawal behind `b` pays nothing while a loan of `b` is
outstanding. -/
theorem outstanding_pays_nothing {h s} (hr : History h s) {b : Address}
    (hok : Along (WhenDone fun s op => op.spares s.world s.store.book b) h) {id : Nat} {loan : LoanRecord}
    (ho : Outstanding h s b id loan) {c : Call} {t : Store} (hc : c.op.withdraws = some b) (hd : exec c s = .ok t) :
    t.bank = s.store.bank := by
  obtain ⟨hactive, hptr⟩ := hr.open b hok id loan ho.stored ho.borrower ho.unpaid ho.unsettled
  have hrecord : s.store.book.getActiveLoanRecord b = some loan := by
    rw [LoanBook.getActiveLoanRecord, hptr]
    exact ho.stored
  exact yields_exec (withdraws_queued hc (LoanBook.hasActiveLoan_iff.2 ⟨loan, hrecord, hactive⟩)) hd

/-- The borrower whose loan a line of a script settles. -/
def Act.settles : Act → Option Address
  | .call _ op => op.settles
  | .wait _ => none

/-- A script without a settling call settles nothing. -/
theorem Settled.not_of_script (b : Address) (id : Nat) {as : List Act}
    (h : ∀ a ∈ as, a.settles = none) : ¬ Settled (start.trace [] as) b id := by
  rintro ⟨s, c, hmem, -, hset, -⟩
  have hnone : c.op.settles = none := h _ ((act_of_mem_trace hmem).resolve_left List.not_mem_nil)
  rw [hnone] at hset
  cases hset

/-- A pool loan, past its deadline. -/
def overdueLoan : List Act := poolLoan ++ [.wait 2592001]

/-- Nobody looked at the overdue loan, so the voucher's withdrawal is queued. -/
theorem outstanding_pays_nothing_overdue :
    ((start.play overdueLoan).after ⟨[2], .withdrawVouch 2 10⟩).store.bank = (start.play overdueLoan).store.bank := by
  have hr : History (start.trace [] overdueLoan) (start.play overdueLoan) :=
    (History.genesis sampleWorld sampleBank).play overdueLoan
  have hok : Along (WhenDone fun s op => op.spares s.world s.store.book 10) (start.trace [] overdueLoan) := by
    have hpool : ((start.play (poolLoan.take 1)).store.book.getActiveLoanRecord 10) = none := by decide +kernel
    refine List.forall_mem_cons.2 ⟨trivial, List.forall_mem_cons.2 ⟨fun _ => Op.spares_of_none hpool (by decide), ?_⟩⟩
    exact List.forall_mem_cons.2 ⟨fun _ => Op.spares_of_none rfl (by decide), List.forall_mem_nil _⟩
  have ho : Outstanding (start.trace [] overdueLoan) (start.play overdueLoan) 10 1
      (newLoan 1 10 500000 10000 1000000 3592000 "pool" 100) :=
    ⟨by decide +kernel, rfl, by decide +kernel, by decide, Settled.not_of_script 10 1 (by decide)⟩
  exact outstanding_pays_nothing hr hok ho rfl (exec_after (by decide +kernel))

/-- A look at the overdue loan marks it, and the voucher is paid the whole stake
although nothing has settled the loan. -/
theorem marked_loan_pays_out :
    ∃ h s loan c t, History h s ∧ Outstanding h s 10 1 loan ∧ c.op.withdraws = some 10 ∧ exec c s = .ok t ∧
      Bank.sent t.bank.log 100 s.world.contract 2 = Bank.sent s.store.bank.log 100 s.world.contract 2 + 1000000 := by
  let script := overdueLoan ++ [.call [2] (.getLoan 10)]
  refine ⟨start.trace [] script, start.play script,
    { newLoan 1 10 500000 10000 1000000 3592000 "pool" 100 with status := .defaulted }, ⟨[2], .withdrawVouch 2 10⟩,
    ((start.play script).after ⟨[2], .withdrawVouch 2 10⟩).store, (History.genesis sampleWorld sampleBank).play script,
    ⟨by decide +kernel, rfl, by decide +kernel, by decide, Settled.not_of_script 10 1 (by decide)⟩, rfl,
    exec_after (by decide +kernel), by decide +kernel⟩

end QuorumCredit
