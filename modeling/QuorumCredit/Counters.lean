import QuorumCredit.Book
import QuorumCredit.Host.Tally
/-!
# Counters of loans and defaults

Three counters are kept beside the loans: how many are active, what they amount
to, and how many defaults each borrower has. Each is exact as long as no call
changes a loan without its counter.
-/

open Host Function

namespace QuorumCredit

namespace LoanBook

/-! ## Active loans and what they amount to -/

def ActiveAt (k : LoanBook) (id : Nat) : Prop :=
  ∃ loan, k.loan id = some loan ∧ loan.status = .active

/-- The amount of the loan stored under `id`. -/
def amountAt (k : LoanBook) (id : Nat) : Int :=
  ((k.loan id).map (·.amount)).getD 0

/-- The two counters are the number of active loans and the sum of their amounts. -/
def CountersExact (k : LoanBook) : Prop :=
  Tally k.ActiveAt k.amountAt k.totalActiveLoans k.totalValueLocked

/-- What the counters need of the loans: no amount is negative, and a borrower's
active loan has that status. -/
structure Sound (k : LoanBook) : Prop where
  exact : k.CountersExact
  amounts : ∀ id loan, k.loan id = some loan → 0 ≤ loan.amount
  active : ∀ b id loan, k.activeLoan b = some id → k.loan id = some loan → loan.status = .active

variable {k : LoanBook}

theorem amountAt_eq {id : Nat} {loan : LoanRecord} (h : k.loan id = some loan) : k.amountAt id = loan.amount := by
  simp [amountAt, h]

theorem activeAt_setLoan {id i : Nat} {new : LoanRecord} :
    (k.setLoan id new).ActiveAt i ↔ i = id ∧ new.status = .active ∨ i ≠ id ∧ k.ActiveAt i := by
  by_cases hi : i = id
  · simp [ActiveAt, hi]
  · simp [ActiveAt, hi]

theorem amountAt_setLoan_of_ne {id i : Nat} {new : LoanRecord} (hi : i ≠ id) :
    (k.setLoan id new).amountAt i = k.amountAt i := by
  simp [amountAt, hi]

theorem sound_empty : empty.Sound := by
  refine ⟨Tally.none ?_, fun id loan h => ?_, fun b id loan h => ?_⟩
  · rintro id ⟨loan, h, -⟩
    cases h
  · cases h
  · cases h

/-- Looking at loans that are not overdue changes nothing. -/
theorem markAll_of_none {now : Nat} (ids : List Nat)
    (h : ∀ id ∈ ids, ∀ loan, k.loan id = some loan → isLoanDefaulted now loan = false) : k.markAll now ids = k := by
  induction ids with
  | nil => rfl
  | cons id ids ih =>
    rw [List.forall_mem_cons] at h
    have hsame : k.markDefault now id = k := by
      rcases markDefault_cases now k id with hm | ⟨loan, hl, hd, -⟩
      · exact hm
      · rw [h.1 loan hl] at hd
        cases hd
    change (k.markDefault now id).markAll now ids = k
    rw [hsame]
    exact ih h.2

theorem Sound.congr {k' : LoanBook} (h : k.Sound) (hl : k'.loan = k.loan) (ha : k'.activeLoan = k.activeLoan)
    (hn : k'.totalActiveLoans = k.totalActiveLoans) (hv : k'.totalValueLocked = k.totalValueLocked) : k'.Sound := by
  refine ⟨?_, fun id loan h' => h.amounts id loan (hl ▸ h'), fun b id loan hb h' =>
    h.active b id loan (ha ▸ hb) (hl ▸ h')⟩
  have hexact := h.exact
  unfold CountersExact ActiveAt amountAt at hexact ⊢
  rwa [hl, hn, hv]

/-- A payment changes neither. -/
theorem Sound.pay (h : k.Sound) {id : Nat} {old new : LoanRecord} (ho : k.loan id = some old)
    (hamount : new.amount = old.amount) (hst : new.status = .active ↔ old.status = .active) :
      (k.setLoan id new).Sound := by
  refine ⟨h.exact.congr (fun i => ?_) (fun i _ => ?_), fun i loan hl => ?_, fun b i loan hb hl => ?_⟩
  · rw [activeAt_setLoan]
    by_cases hi : i = id
    · subst hi
      simp [ActiveAt, ho, hst]
    · simp [hi]
  · by_cases hi : i = id
    · subst hi
      simp [amountAt, ho, hamount]
    · exact amountAt_setLoan_of_ne hi
  · rcases setLoan_cases hl with ⟨rfl, rfl⟩ | ⟨-, hl⟩
    · rw [hamount]
      exact h.amounts i old ho
    · exact h.amounts i loan hl
  · rcases setLoan_cases hl with ⟨rfl, rfl⟩ | ⟨-, hl⟩
    · exact hst.2 (h.active b i old hb ho)
    · exact h.active b i loan hb hl

theorem Sound.release (h : k.Sound) (b : Address) : (k.setActiveLoan b none).Sound := by
  refine ⟨h.exact, h.amounts, fun b' id loan hb hl => ?_⟩
  rcases setActiveLoan_cases hb with ⟨-, hb⟩ | ⟨-, hb⟩
  · cases hb
  · exact h.active b' id loan hb hl

/-- An active loan is counted, and its amount with it. -/
theorem Sound.counted (h : k.Sound) {id : Nat} {loan : LoanRecord} (hl : k.loan id = some loan)
    (hst : loan.status = .active) : 0 < k.totalActiveLoans ∧ loan.amount ≤ k.totalValueLocked := by
  have hactive : k.ActiveAt id := ⟨loan, hl, hst⟩
  refine ⟨h.exact.pos hactive, ?_⟩
  rw [← amountAt_eq hl]
  refine h.exact.weight_le hactive ?_
  rintro i ⟨loan, hl, -⟩
  rw [amountAt_eq hl]
  exact h.amounts i loan hl

/-- A loan closed, with one loan less and its amount taken off. -/
theorem Sound.close (h : k.Sound) (hk : k.Keyed) {b : Address} {old new : LoanRecord}
    (ha : k.activeLoan b = some old.id) (ho : k.loan old.id = some old) (hs : SameLoan old new)
    (hst : new.status = .repaid) :
    (((k.setLoan new.id new).setActiveLoan b none).decrementTvlCounters old.amount).Sound := by
  have hactive : old.status = .active := h.active b old.id old ha ho
  have hid := hs.id
  have htally : Tally (k.setLoan new.id new).ActiveAt (k.setLoan new.id new).amountAt (k.totalActiveLoans - 1)
      (k.totalValueLocked - k.amountAt new.id) := by
    refine h.exact.leave ⟨old, hid ▸ ho, hactive⟩ (fun i => ?_) fun i hi => amountAt_setLoan_of_ne hi
    rw [activeAt_setLoan, hst]
    simp
  have hle := (h.counted ho hactive).2
  refine ⟨?_, fun i loan hl => ?_, fun b' i loan hb hl => ?_⟩
  · have hmax : max (k.totalValueLocked - old.amount) 0 = k.totalValueLocked - old.amount := max_eq_left (by omega)
    rw [hid, amountAt_eq ho] at htally
    unfold CountersExact
    rw [decrementTvlCounters_totalValueLocked, setActiveLoan_totalValueLocked, setLoan_totalValueLocked, hmax, hid]
    exact htally
  · rcases setLoan_cases hl with ⟨-, rfl⟩ | ⟨-, hl⟩
    · rw [hs.amount]
      exact h.amounts _ _ ho
    · exact h.amounts i loan hl
  · rcases setActiveLoan_cases hb with ⟨-, hb⟩ | ⟨hne, hb⟩
    · cases hb
    · rcases setLoan_cases hl with ⟨rfl, -⟩ | ⟨-, hl⟩
      · -- another borrower's pointer does not lead to this loan
        obtain ⟨l, hl', hb'⟩ := hk.active hb
        obtain ⟨l₀, hl₀, hb₀⟩ := hk.active ha
        rw [hid, hl₀] at hl'
        cases hl'
        exact absurd (hb'.symm.trans hb₀) hne
      · exact h.active b' i loan hb hl

/-- A loan issued, with one loan more and its amount added. -/
theorem Sound.issue (h : k.Sound) (hk : k.Keyed) {n : Nat} {b : Address} {loan : LoanRecord} (hf : Fresh k n b loan) :
    (((k.takeIds (n + 1)).issue loan).incrementTvlCounters loan.amount).Sound := by
  have hunused : k.loan loan.id = none := hk.unused (by have := hf.id; omega)
  have hnew : ¬ k.ActiveAt loan.id := by
    rintro ⟨l, hl, -⟩
    rw [hunused] at hl
    cases hl
  have htally : Tally (k.setLoan loan.id loan).ActiveAt (k.setLoan loan.id loan).amountAt (k.totalActiveLoans + 1)
      (k.totalValueLocked + (k.setLoan loan.id loan).amountAt loan.id) := by
    refine h.exact.enter hnew (fun i => ?_) (fun i hi => amountAt_setLoan_of_ne ?_)
    · rw [activeAt_setLoan, hf.status]
      by_cases hi : i = loan.id
      · simp [hi]
      · simp [hi]
    · rintro rfl
      exact hnew hi
  refine ⟨?_, fun i l hl => ?_, fun b' i l hb hl => ?_⟩
  · have hamount : (k.setLoan loan.id loan).amountAt loan.id = loan.amount := amountAt_eq (by simp)
    rw [hamount] at htally
    exact htally
  · rcases setLoan_cases hl with ⟨-, rfl⟩ | ⟨-, hl⟩
    · exact hf.amount
    · exact h.amounts i l hl
  · rcases setActiveLoan_cases hb with ⟨-, hb⟩ | ⟨-, hb⟩
    · cases hb
      rcases setLoan_cases hl with ⟨-, rfl⟩ | ⟨hi, -⟩
      · exact hf.status
      · exact absurd rfl hi
    · rcases setLoan_cases hl with ⟨-, rfl⟩ | ⟨-, hl⟩
      · exact hf.status
      · exact h.active b' i l hb hl

end LoanBook

/-- What keeps the counters exact: no overdue loan is looked at, no pool is
issued, no active loan is slashed, and a refinance is for the amount it
replaces. -/
def Op.keepsCounters (w : World) (k : LoanBook) (op : Op) : Prop :=
  (∀ id ∈ op.looksAt w k, ∀ loan, k.loan id = some loan → isLoanDefaulted w.now loan = false) ∧
    match op with
    | .createLoanPool .. | .slash .. => False
    | .executeSlashVote b | .executePendingSlash b =>
      ∀ loan, k.getActiveLoanRecord b = some loan → loan.status ≠ .active
    | .refinanceLoan b newAmount _ _ => ∀ loan, k.getActiveLoanRecord b = some loan → loan.amount = newAmount
    | _ => True

theorem LoanBook.Sound.effect {k k' : LoanBook} {w : World} {op : Op} (h : k.Sound) (hk : k.Keyed)
    (he : Effect w k op k') (hop : op.keepsCounters w k) : k'.Sound := by
  obtain ⟨hlook, hop⟩ := hop
  cases he with
  | looked _ =>
    rw [LoanBook.markAll_of_none _ hlook]
    exact h
  | @requested b amount threshold purpose token loan _ hf hamount _ =>
    have hsame := LoanBook.markAll_of_none (k.borrowerLoanIds b) hlook
    rw [hsame] at hf ⊢
    obtain ⟨ids, hopen⟩ := LoanBook.openLoan_eq (k.takeIds 2) loan
    rw [hopen, ← hamount]
    exact (h.issue hk hf).congr rfl rfl rfl rfl
  | paid ho hs hst _ _ =>
    exact h.pay (hs.id ▸ (hk.loan_to_repay ho).1) hs.amount (by rw [hst])
  | recovered ho hd hs hst _ _ =>
    exact h.pay (hs.id ▸ (hk.loan_to_repay ho).1) hs.amount (by simp [hd, hst])
  | @closed b payment old new ho hd hs hst _ _ =>
    obtain ⟨hl, -, hptr⟩ := hk.loan_to_repay ho
    have hptr := hptr.resolve_right fun h => hd h.2
    rw [hs.amount]
    exact (h.close hk hptr hl hs hst).congr rfl rfl rfl rfl
  | paidPartial ho hs hst _ _ =>
    exact h.pay (hs.id ▸ (hk.active_record ho).2.1) hs.amount (by rw [hst])
  | @refinanced b amount threshold token old new loan ho hs hst _ _ hf hamount _ =>
    obtain ⟨hptr, hl, -⟩ := hk.active_record ho
    have hkey : (((k.setLoan new.id new).setActiveLoan b none).decrementTvlCounters old.amount).Keyed :=
      ((hk.store hl hs (.inr hst)).release b).congr rfl rfl rfl le_rfl
    obtain ⟨hpos, hle⟩ := h.counted hl (h.active b old.id old hptr hl)
    have hsame : old.amount = amount := hop old ho
    -- closing takes one loan and its amount off, and issuing puts them back
    refine ((h.close hk hptr hl hs hst).issue hkey (hf.congr rfl)).congr rfl rfl ?_ ?_
    · change k.totalActiveLoans = k.totalActiveLoans - 1 + 1
      omega
    · change k.totalValueLocked = max (k.totalValueLocked - old.amount) 0 + loan.amount
      omega
  | pooled _ _ _ => exact hop.elim
  | slashed _ _ => exact hop.elim
  | autoSlashed _ _ => exact h
  | @claimed b loan ho _ _ =>
    have hset : (k.setLoan loan.id { loan with defaulted := true }).Sound :=
      h.pay (hk.active_record ho).2.1 rfl Iff.rfl
    exact (hset.release b).congr rfl rfl rfl rfl
  | executedVote ho _ | executedPending ho _ =>
    obtain ⟨hptr, hl, -⟩ := hk.active_record ho
    exact absurd (h.active _ _ _ hptr hl) (hop _ ho)

theorem History.sound {h s} (hr : History h s)
    (hok : Along (WhenDone fun s op => op.keepsCounters s.world s.store.book) h) : s.store.book.Sound :=
  hr.bookWhen LoanBook.sound_empty (fun hr hs he hop => hs.effect hr.keyed he hop) hok

/-- In every run whose calls keep the counters, they are exact. -/
theorem counters_exact {h s} (hr : History h s)
    (hok : Along (WhenDone fun s op => op.keepsCounters s.world s.store.book) h) :
    s.store.book.CountersExact :=
  (hr.sound hok).exact

/-- A pool counts none of its loans. -/
theorem pool_not_counted : Reachable (start.play poolLoan) ∧ ¬ (start.play poolLoan).store.book.CountersExact := by
  refine ⟨Reachable.script .., fun h => ?_⟩
  have hactive : ((start.play poolLoan).store.book.loan 1).any (fun loan => loan.status = .active) = true := by
    decide +kernel
  have hcount : (start.play poolLoan).store.book.totalActiveLoans = 0 := by decide +kernel
  obtain ⟨loan, hl, hst⟩ := (Option.any_eq_true _ _).1 hactive
  have hpos := h.pos ⟨loan, hl, of_decide_eq_true hst⟩
  omega

/-- A requested loan is counted. -/
theorem counters_exact_requested : (start.play requestedLoan).store.book.CountersExact := by
  refine counters_exact ((History.genesis sampleWorld sampleBank).play _) ?_
  -- at each call the borrower has no loan to look at
  refine List.forall_mem_cons.2 ⟨fun _ => ⟨fun id h => ?_, trivial⟩, ?_⟩
  · cases (show id ∈ [] from h)
  refine List.forall_mem_cons.2 ⟨fun _ => ⟨fun id h => ?_, trivial⟩, ?_⟩
  · cases (show id ∈ [] from h)
  refine List.forall_mem_cons.2 ⟨fun _ => ⟨fun id h => ?_, trivial⟩, List.forall_mem_nil _⟩
  cases (show id ∈ [] from h)

end QuorumCredit
