import QuorumCredit.Book
import QuorumCredit.Host.Tally
/-!
# Counting defaults

A loan is struck when some call settles it or marks it as defaulted. The
history says which loans of a borrower have been, and `DefaultCount` is their
number as long as every path that strikes a loan counts it, and only once.
-/

open Host Function

namespace QuorumCredit

/-! ## Struck loans -/

/-- The loan `id` of `b` is stored and overdue. -/
def LoanBook.Overdue (now : Nat) (k : LoanBook) (b : Address) (id : Nat) : Prop :=
  ∃ loan, k.loan id = some loan ∧ loan.borrower = b ∧ isLoanDefaulted now loan = true

/-- The call, when it goes through, settles or marks the loan `id` of `b` as defaulted. -/
def Op.strikes (w : World) (k : LoanBook) (op : Op) (b : Address) (id : Nat) : Prop :=
  id ∈ op.looksAt w k ∧ k.Overdue w.now b id ∨
    op.settles = some b ∧ ∃ loan, k.getActiveLoanRecord b = some loan ∧ loan.id = id

/-- Some call of the history settled or marked the loan `id` of `b` as defaulted. -/
def Struck (h : List (State × Move)) (b : Address) (id : Nat) : Prop :=
  Happened (fun s op => op.strikes s.world s.store.book b id) h

/-- Each borrower's count is the number of its struck loans, and the global one the sum of all. -/
structure DefaultsExact (h : List (State × Move)) (k : LoanBook) : Prop where
  count : ∀ b, Number (Struck h b) (k.defaultCount b)
  total : Total k.defaultCount k.totalDefaultCount

theorem struck_call {h : List (State × Move)} {s : State} {c : Call} {t : Store} (hd : exec c s = .ok t) (b : Address)
    (id : Nat) : Struck ((s, .call c) :: h) b id ↔ Struck h b id ∨ c.op.strikes s.world s.store.book b id :=
  happened_call hd

theorem struck_other {h : List (State × Move)} {s : State} {m : Move} (hm : ∀ c t, m = .call c → exec c s ≠ .ok t)
    (b : Address) (id : Nat) : Struck ((s, m) :: h) b id ↔ Struck h b id :=
  happened_other hm

/-! ## The counts against the loans -/

/-- The counts are exact for the loans with `P`, which are past being active;
and a loan that is Defaulted, or led to and no longer Active, is among them. -/
structure Kept (P : Address → Nat → Prop) (k : LoanBook) : Prop where
  count : ∀ b, Number (P b) (k.defaultCount b)
  total : Total k.defaultCount k.totalDefaultCount
  past : ∀ b id, P b id → ∃ loan, k.loan id = some loan ∧ loan.borrower = b ∧ loan.status ≠ .active
  known : ∀ id loan, k.loan id = some loan →
    loan.status = .defaulted ∨ loan.status ≠ .active ∧ k.activeLoan loan.borrower = some id → P loan.borrower id

namespace Kept

variable {P Q : Address → Nat → Prop} {k k' : LoanBook}

theorem iff (h : Kept P k) (hq : ∀ b id, Q b id ↔ P b id) : Kept Q k :=
  ⟨fun b => (h.count b).congr (hq b), h.total, fun b id hp => h.past b id ((hq b id).1 hp),
    fun id loan hl hs => (hq _ _).2 (h.known id loan hl hs)⟩

theorem congr (h : Kept P k) (hl : k'.loan = k.loan) (ha : k'.activeLoan = k.activeLoan)
    (hc : k'.defaultCount = k.defaultCount) (ht : k'.totalDefaultCount = k.totalDefaultCount) : Kept P k' := by
  refine ⟨fun b => hc ▸ h.count b, ?_, fun b id hp => hl ▸ h.past b id hp, fun id loan hloan hs => ?_⟩
  · rw [hc, ht]
    exact h.total
  · rw [hl] at hloan
    rw [ha] at hs
    exact h.known id loan hloan hs

theorem empty : Kept (fun _ _ => False) .empty :=
  ⟨fun _ => Number.none fun _ => id, Total.zero, fun _ _ h => h.elim, fun _ _ h => by cases h⟩

theorem release (h : Kept P k) (b : Address) : Kept P (k.setActiveLoan b none) := by
  refine ⟨h.count, h.total, h.past, fun id loan hl hs => h.known id loan hl ?_⟩
  rcases hs with hs | ⟨hs, hb⟩
  · exact .inl hs
  · rcases LoanBook.setActiveLoan_cases hb with ⟨-, hb⟩ | ⟨-, hb⟩
    · cases hb
    · exact .inr ⟨hs, hb⟩

/-- A loan stored anew: it may not become Active again, and may not come to be
one of the known ones by it. -/
theorem setLoan (h : Kept P k) {id : Nat} {old new : LoanRecord} (ho : k.loan id = some old)
    (hb : new.borrower = old.borrower) (hactive : new.status = .active → old.status = .active)
    (hknown : new.status = .defaulted ∨ new.status ≠ .active ∧ k.activeLoan old.borrower = some id →
      old.status = .defaulted ∨ old.status ≠ .active ∧ k.activeLoan old.borrower = some id) :
    Kept P (k.setLoan id new) := by
  refine ⟨h.count, h.total, fun b i hp => ?_, fun i l hl hs => ?_⟩
  · obtain ⟨loan, hl, hborrower, hst⟩ := h.past b i hp
    by_cases hi : i = id
    · subst hi
      rw [ho] at hl
      cases hl
      exact ⟨new, by simp, hb.trans hborrower, fun hn => hst (hactive hn)⟩
    · exact ⟨loan, by simp [hi, hl], hborrower, hst⟩
  · rcases LoanBook.setLoan_cases hl with ⟨rfl, rfl⟩ | ⟨-, hl⟩
    · rw [hb] at hs ⊢
      exact h.known i old ho (hknown hs)
    · exact h.known i l hl hs

/-- An active loan struck and counted once. -/
theorem strike (h : Kept P k) {id : Nat} {loan : LoanRecord} (hl : k.loan id = some loan)
    (hactive : loan.status = .active) :
    Kept (fun b i => P b i ∨ b = loan.borrower ∧ i = id) (k.markLoan id loan) := by
  have hnew : ¬ P loan.borrower id := by
    intro hp
    obtain ⟨loan', hl', -, hst⟩ := h.past _ _ hp
    rw [hl] at hl'
    cases hl'
    exact hst hactive
  refine ⟨fun b => ?_, h.total.bump loan.borrower, fun b i hp => ?_, fun i l hl' hs => ?_⟩
  · by_cases hb : b = loan.borrower
    · subst hb
      have hcount : (k.markLoan id loan).defaultCount loan.borrower = k.defaultCount loan.borrower + 1 :=
        update_self ..
      rw [hcount]
      refine (h.count loan.borrower).enter hnew fun i => ?_
      simp only [true_and]
      exact or_comm
    · have hcount : (k.markLoan id loan).defaultCount b = k.defaultCount b := update_of_ne hb ..
      rw [hcount]
      exact (h.count b).congr fun i => by simp [hb]
  · by_cases hi : i = id
    · subst hi
      refine ⟨{ loan with status := .defaulted }, update_self .., ?_, nofun⟩
      rcases hp with hp | ⟨rfl, -⟩
      · obtain ⟨loan', hl', hb', -⟩ := h.past b i hp
        rw [hl] at hl'
        cases hl'
        exact hb'
      · rfl
    · obtain ⟨l, hl', hb', hst⟩ := h.past b i (hp.resolve_right fun h => hi h.2)
      exact ⟨l, (update_of_ne hi ..).trans hl', hb', hst⟩
  · rcases LoanBook.setLoan_cases hl' with ⟨rfl, rfl⟩ | ⟨-, hl'⟩
    · exact .inr ⟨rfl, rfl⟩
    · exact .inl (h.known i l hl' hs)

theorem issue (h : Kept P k) (hk : k.Keyed) {n : Nat} {b : Address} {loan : LoanRecord} (hf : Fresh k n b loan) :
    Kept P ((k.takeIds (n + 1)).issue loan) := by
  have hunused : k.loan loan.id = none := hk.unused (by have := hf.id; omega)
  refine ⟨h.count, h.total, fun b' i hp => ?_, fun i l hl hs => ?_⟩
  · obtain ⟨l, hl, hb, hst⟩ := h.past b' i hp
    have hi : i ≠ loan.id := by
      rintro rfl
      rw [hunused] at hl
      cases hl
    exact ⟨l, by simp [hi, hl], hb, hst⟩
  · rcases LoanBook.setLoan_cases hl with ⟨-, rfl⟩ | ⟨hi, hl⟩
    · rcases hs with hs | ⟨hs, -⟩
      · rw [hf.status] at hs
        cases hs
      · exact absurd hf.status hs
    · refine h.known i l hl (hs.imp_right fun hs => ⟨hs.1, ?_⟩)
      rcases LoanBook.setActiveLoan_cases hs.2 with ⟨-, hb⟩ | ⟨-, hb⟩
      · exact absurd (Option.some.inj hb).symm hi
      · exact hb

theorem pool {token : Address} {pool : List (Address × Int)} (h : Kept P k) (hk : k.Keyed)
    (hp : PoolEffect token k pool k') : Kept P k' := by
  induction hp with
  | nil => exact h
  | cons hf _ _ _ ih => exact ih (h.issue hk hf) (hk.issue hf)

/-! ### Marking -/

/-- A loan looked at is no longer overdue; the others are what they were. -/
theorem overdue_mark (now : Nat) (k : LoanBook) (id : Nat) (b : Address) (i : Nat) :
    (k.markDefault now id).Overdue now b i ↔ i ≠ id ∧ k.Overdue now b i := by
  rcases LoanBook.markDefault_cases now k id with h | ⟨loan, hl, hd, h⟩
  · rw [h]
    refine ⟨fun hi => ⟨?_, hi⟩, fun hi => hi.2⟩
    rintro rfl
    obtain ⟨loan, hl, -, hd⟩ := hi
    -- an overdue loan would have been marked
    have hm : k.markDefault now i = k.markLoan i loan := by simp [LoanBook.markDefault, hl, hd]
    have hst : (k.markLoan i loan).loan i = some { loan with status := .defaulted } := update_self ..
    rw [← hm, h, hl] at hst
    have hactive := isLoanDefaulted_active hd
    rw [Option.some.inj hst] at hactive
    cases hactive
  · rw [h]
    constructor
    · rintro ⟨l, hl', hb, hd'⟩
      rcases LoanBook.setLoan_cases hl' with ⟨-, rfl⟩ | ⟨hi, hl'⟩
      · cases isLoanDefaulted_active hd'
      · exact ⟨hi, l, hl', hb, hd'⟩
    · rintro ⟨hi, l, hl', hb, hd'⟩
      exact ⟨l, (update_of_ne hi ..).trans hl', hb, hd'⟩

theorem mark (h : Kept P k) (now id : Nat) :
    Kept (fun b i => P b i ∨ i = id ∧ k.Overdue now b i) (k.markDefault now id) := by
  rcases LoanBook.markDefault_cases now k id with hm | ⟨loan, hl, hd, hm⟩
  · rw [hm]
    refine h.iff fun b i => ⟨fun hp => hp.resolve_right ?_, .inl⟩
    rintro ⟨rfl, hover⟩
    rw [← hm, overdue_mark] at hover
    exact hover.1 rfl
  · rw [hm]
    refine (h.strike hl (isLoanDefaulted_active hd)).iff fun b i => or_congr_right ?_
    constructor
    · rintro ⟨rfl, l, hl', rfl, -⟩
      rw [hl] at hl'
      cases hl'
      exact ⟨rfl, rfl⟩
    · rintro ⟨rfl, rfl⟩
      exact ⟨rfl, loan, hl, rfl, hd⟩

/-- Looking at many loans strikes those that are overdue, each of them once. -/
theorem markAll (h : Kept P k) (now : Nat) (ids : List Nat) :
    Kept (fun b i => P b i ∨ i ∈ ids ∧ k.Overdue now b i) (k.markAll now ids) := by
  induction ids generalizing P k with
  | nil => exact h.iff fun b i => by simp
  | cons id ids ih =>
    refine (ih (h.mark now id)).iff fun b i => ?_
    rw [overdue_mark, List.mem_cons]
    by_cases hi : i = id
    · simp [hi]
    · simp [hi]

end Kept

/-! ## Every call -/

/-- What keeps the counts: no loan is slashed by its flag or claimed as expired,
`auto_slash` hits a loan that is no longer active, and a slash by vote one that is. -/
def Op.countsDefaults (k : LoanBook) : Op → Prop
  | .slash .. | .claimExpiredLoan _ => False
  | .autoSlash b => ∀ loan, k.getActiveLoanRecord b = some loan → loan.status ≠ .active
  | .executeSlashVote b | .executePendingSlash b =>
    ∀ loan, k.getActiveLoanRecord b = some loan → loan.status = .active
  | _ => True

variable {k : LoanBook} {P : Address → Nat → Prop}

/-- What a call strikes that settles nothing. -/
theorem strikes_looked {w : World} {op : Op} (h : op.settles = none) (b : Address) (id : Nat) :
    op.strikes w k b id ↔ id ∈ op.looksAt w k ∧ k.Overdue w.now b id := by
  simp [Op.strikes, h]

/-- What a settlement strikes: the active loan. -/
theorem strikes_settled {w : World} {op : Op} {b : Address} {loan : LoanRecord} (h : op.settles = some b)
    (hlook : op.looksAt w k = []) (ho : k.getActiveLoanRecord b = some loan) (b' : Address) (id : Nat) :
    op.strikes w k b' id ↔ b' = b ∧ id = loan.id := by
  rw [Op.strikes, hlook, h]
  constructor
  · rintro (⟨hmem, -⟩ | ⟨hb, loan', ho', rfl⟩)
    · cases hmem
    · cases hb
      rw [ho] at ho'
      cases ho'
      exact ⟨rfl, rfl⟩
  · rintro ⟨rfl, rfl⟩
    exact .inr ⟨rfl, loan, ho, rfl⟩

/-- A call that strikes nothing. -/
theorem Kept.unstruck {k' : LoanBook} {w : World} {op : Op} (h : Kept P k') (hs : op.settles = none)
    (hl : op.looksAt w k = []) : Kept (fun b i => P b i ∨ op.strikes w k b i) k' :=
  h.iff fun b i => by simp [strikes_looked hs, hl]

theorem Kept.close (h : Kept P k) {b : Address} {old new : LoanRecord} (ho : k.loan old.id = some old)
    (hborrower : old.borrower = b) (hs : SameLoan old new) (hst : new.status = .repaid) :
    Kept P ((k.setLoan new.id new).setActiveLoan b none) := by
  have hset : Kept P ((k.setActiveLoan b none).setLoan new.id new) := by
    refine (h.release b).setLoan (hs.id ▸ ho) hs.borrower (by rw [hst]; exact nofun) ?_
    rintro (hd | ⟨-, hptr⟩)
    · rw [hst] at hd
      cases hd
    · rw [hborrower, LoanBook.setActiveLoan_activeLoan, update_self] at hptr
      cases hptr
  exact hset

theorem Kept.execute (h : Kept P k) {b : Address} {loan : LoanRecord} (hl : k.loan loan.id = some loan)
    (hb : loan.borrower = b) (hactive : loan.status = .active) :
    Kept (fun b' i => P b' i ∨ b' = b ∧ i = loan.id) (k.settleDefaulted b loan) := by
  subst hb
  exact ((h.strike hl hactive).release loan.borrower).congr rfl rfl rfl rfl

theorem Kept.effect {k' : LoanBook} {w : World} {op : Op} (h : Kept P k) (hk : k.Keyed) (he : Effect w k op k')
    (hop : op.countsDefaults k) : Kept (fun b i => P b i ∨ op.strikes w k b i) k' := by
  cases he with
  | looked honly =>
    have hs : op.settles = none := by cases op <;> first | rfl | cases honly
    exact (h.markAll w.now _).iff fun b i => or_congr_right (strikes_looked hs b i)
  | @requested b amount threshold purpose token loan _ hf _ _ =>
    obtain ⟨ids, hopen⟩ := LoanBook.openLoan_eq ((k.markAll w.now (k.borrowerLoanIds b)).takeIds 2) loan
    rw [hopen]
    have hmarked := h.markAll w.now (k.borrowerLoanIds b)
    refine Kept.iff ((hmarked.issue (hk.markAll w.now _) hf).congr rfl rfl rfl rfl) fun b' i => or_congr_right ?_
    exact strikes_looked rfl b' i
  | paid ho hs hst _ _ =>
    refine (h.setLoan (hs.id ▸ (hk.loan_to_repay ho).1) hs.borrower ?_ ?_).unstruck rfl rfl
    · rw [hst]; exact id
    · rw [hst]; exact id
  | recovered ho hd hs hst _ _ =>
    refine (h.setLoan (hs.id ▸ (hk.loan_to_repay ho).1) hs.borrower ?_ fun _ => .inl hd).unstruck rfl rfl
    rw [hst]; exact nofun
  | closed ho _ hs hst _ _ =>
    obtain ⟨hl, hb, -⟩ := hk.loan_to_repay ho
    exact Kept.unstruck ((h.close hl hb hs hst).congr rfl rfl rfl rfl) rfl rfl
  | paidPartial ho hs hst _ _ =>
    refine (h.setLoan (hs.id ▸ (hk.active_record ho).2.1) hs.borrower ?_ ?_).unstruck rfl rfl
    · rw [hst]; exact id
    · rw [hst]; exact id
  | @refinanced b amount threshold token old new loan ho hs hst _ _ hf _ _ =>
    obtain ⟨-, hl, hb⟩ := hk.active_record ho
    have hkey := (hk.store hl hs (.inr hst)).release b
    exact ((h.close hl hb hs hst).issue hkey (hf.congr rfl)).unstruck rfl rfl
  | pooled _ _ hp => exact (h.pool hk hp).unstruck rfl rfl
  | slashed _ _ => exact hop.elim
  | claimed _ _ _ => exact hop.elim
  | @autoSlashed b loan ho _ =>
    obtain ⟨hptr, hl, hb⟩ := hk.active_record ho
    have hknown : P loan.borrower loan.id := h.known loan.id loan hl (.inr ⟨hop loan ho, hb ▸ hptr⟩)
    refine h.iff fun b' i => ?_
    rw [strikes_settled rfl rfl ho]
    constructor
    · rintro (hp | ⟨rfl, rfl⟩)
      · exact hp
      · exact hb ▸ hknown
    · exact .inl
  | executedVote ho _ | executedPending ho _ =>
    obtain ⟨-, hl, hb⟩ := hk.active_record ho
    exact (h.execute hl hb (hop _ ho)).iff fun b' i => or_congr_right (strikes_settled rfl rfl ho b' i)

theorem History.kept {h s} (hr : History h s)
    (hok : Along (WhenDone fun s op => op.countsDefaults s.store.book) h) : Kept (Struck h) s.store.book := by
  refine History.inv (I := fun h s => Kept (Struck h) s.store.book) (fun _ _ => ?_) (fun {h s c t} hr hi hd hop => ?_)
    (fun {h s c e} hi he => ?_) (fun {h s world access bank} hi _ _ => ?_) hr hok
  · refine Kept.empty.iff fun b id => ⟨?_, False.elim⟩
    rintro ⟨s, c, hmem, -⟩
    cases hmem
  · exact (hi.effect hr.keyed (effect_of hd) hop).iff (struck_call hd)
  · refine hi.iff (struck_other fun c' t hc => ?_)
    cases hc
    rw [he]
    nofun
  · refine hi.iff (struck_other fun c' t hc => ?_)
    cases hc

/-- In every run whose calls count defaults, each borrower's count is the number
of its loans struck, and the global count the sum of all. -/
theorem defaults_exact {h s} (hr : History h s)
    (hok : Along (WhenDone fun s op => op.countsDefaults s.store.book) h) : DefaultsExact h s.store.book :=
  ⟨(hr.kept hok).count, (hr.kept hok).total⟩

/-- A loan marked by looking at it is counted once. -/
theorem defaults_exact_marked :
    DefaultsExact (start.trace [] (poolLoan ++ [.wait 2592001, .call [2] (.getLoan 10)]))
      (start.play (poolLoan ++ [.wait 2592001, .call [2] (.getLoan 10)])).store.book := by
  refine defaults_exact ((History.genesis sampleWorld sampleBank).play _) ?_
  refine List.forall_mem_cons.2 ⟨fun _ => trivial, List.forall_mem_cons.2 ⟨trivial, ?_⟩⟩
  exact List.forall_mem_cons.2 ⟨fun _ => trivial, List.forall_mem_cons.2 ⟨fun _ => trivial, List.forall_mem_nil _⟩⟩

/-- A slash counts the loan twice for its borrower and once for the contract. -/
theorem slash_counts_twice : History (start.trace [] slashedLoan) (start.play slashedLoan) ∧
    ¬ DefaultsExact (start.trace [] slashedLoan) (start.play slashedLoan).store.book := by
  refine ⟨(History.genesis sampleWorld sampleBank).play _, fun h => ?_⟩
  have hle := h.total.le 10
  revert hle
  decide +kernel

end QuorumCredit
