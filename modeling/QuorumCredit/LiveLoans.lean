import QuorumCredit.LoanLife
/-!
# Live loans

A loan is live while its status is Active and its borrower's pointer leads to it.
Only a loan just issued becomes live: one that has been settled, marked or replaced
does not come back.
-/

open Host Function

namespace QuorumCredit

namespace LoanBook

/-- The loan is Active, and its borrower's active loan. -/
def Live (k : LoanBook) (id : Nat) : Prop :=
  ∃ loan ∈ k.loan id, loan.status = .active ∧ k.activeLoan loan.borrower = some id

instance (k : LoanBook) (id : Nat) : Decidable (k.Live id) :=
  inferInstanceAs (Decidable (∃ loan ∈ k.loan id, loan.status = .active ∧ k.activeLoan loan.borrower = some id))

/-- Every loan is still there, of the same borrower, and live only if it was. -/
structure Fades (k k' : LoanBook) : Prop where
  stored : ∀ {id loan}, k.loan id = some loan → ∃ loan', k'.loan id = some loan' ∧ loan'.borrower = loan.borrower
  live : ∀ {id loan}, k.loan id = some loan → k'.Live id → k.Live id

namespace Fades

variable {k k' k'' : LoanBook}

theorem refl (k : LoanBook) : Fades k k := ⟨fun {_ loan} h => ⟨loan, h, rfl⟩, fun _ h => h⟩

theorem trans (h : Fades k k') (h' : Fades k' k'') : Fades k k'' := by
  constructor
  · intro id loan hl
    obtain ⟨loan', hl', hb⟩ := h.stored hl
    obtain ⟨loan'', hl'', hb'⟩ := h'.stored hl'
    exact ⟨loan'', hl'', hb'.trans hb⟩
  · intro id loan hl hlive
    obtain ⟨loan', hl', -⟩ := h.stored hl
    exact h.live hl (h'.live hl' hlive)

/-- The counters do not matter. -/
theorem congr {k₁ : LoanBook} (h : Fades k k') (hl : k₁.loan = k'.loan) (ha : k₁.activeLoan = k'.activeLoan) :
    Fades k k₁ := by
  constructor
  · intro id loan hid
    rw [hl]
    exact h.stored hid
  · rintro id loan hid ⟨new, hnew, hst, hptr⟩
    rw [hl] at hnew
    rw [ha] at hptr
    exact h.live hid ⟨new, hnew, hst, hptr⟩

/-- A record stored anew may not become Active by it. -/
theorem setLoan {id : Nat} {old new : LoanRecord} (ho : k.loan id = some old) (hb : new.borrower = old.borrower)
    (hs : new.status = .active → old.status = .active) : Fades k (k.setLoan id new) := by
  constructor
  · intro i loan hl
    by_cases hi : i = id
    · subst hi
      cases ho.symm.trans hl
      exact ⟨new, by simp, hb⟩
    · exact ⟨loan, by simp [hi, hl], rfl⟩
  · rintro i loan hl ⟨l, h, hst, hptr⟩
    rcases setLoan_cases h with ⟨rfl, rfl⟩ | ⟨-, h⟩
    · rw [hb] at hptr
      exact ⟨old, ho, hs hst, hptr⟩
    · exact ⟨l, h, hst, hptr⟩

theorem release (k : LoanBook) (b : Address) : Fades k (k.setActiveLoan b none) := by
  constructor
  · intro id loan hl
    exact ⟨loan, hl, rfl⟩
  · rintro id loan - ⟨l, h, hst, hptr⟩
    refine ⟨l, h, hst, ?_⟩
    rw [setActiveLoan_activeLoan, update_apply] at hptr
    split at hptr
    · cases hptr
    · exact hptr

theorem mark (now : Nat) (k : LoanBook) (id : Nat) : Fades k (k.markDefault now id) := by
  rcases markDefault_cases now k id with h | ⟨loan, hl, -, h⟩
  · rw [h]
    exact refl k
  · rw [h]
    have hset : Fades k (k.setLoan id { loan with status := .defaulted }) := setLoan hl rfl (fun h => by cases h)
    exact hset.congr rfl rfl

theorem markAll (now : Nat) (k : LoanBook) (ids : List Nat) : Fades k (k.markAll now ids) :=
  markAll_keeps (fun k' id h => h.trans (mark now k' id)) ids (refl k)

/-- A new loan takes the pointer and nothing else. -/
theorem issue (hk : k.Keyed) {n : Nat} {borrower : Address} {loan : LoanRecord} (hf : Fresh k n borrower loan)
    (m : Nat) : Fades k ((k.takeIds m).issue loan) := by
  have hunused : k.loan loan.id = none := hk.unused (by rw [hf.id]; omega)
  have hother : ∀ {i l}, k.loan i = some l → i ≠ loan.id := by
    rintro i l hl rfl
    cases hunused.symm.trans hl
  constructor
  · intro i l hl
    refine ⟨l, ?_, rfl⟩
    rw [issue_loan, update_of_ne (hother hl)]
    exact hl
  · rintro i l hl ⟨l', h, hst, hptr⟩
    rcases issue_cases h with ⟨hi, -⟩ | ⟨-, h⟩
    · exact (hother hl hi).elim
    · refine ⟨l', h, hst, ?_⟩
      rw [issue_activeLoan, update_apply] at hptr
      split at hptr
      · exact (hother hl (Option.some.inj hptr).symm).elim
      · exact hptr

theorem pool {token : Address} {pool : List (Address × Int)} (hk : k.Keyed) (hp : PoolEffect token k pool k') :
    Fades k k' := by
  induction hp with
  | nil => exact refl _
  | cons hf _ _ _ ih => exact (issue hk hf 1).trans (ih (hk.issue hf))

/-- Whatever a call does, no loan that is there becomes live by it. -/
theorem effect {w : World} {op : Op} (hk : k.Keyed) (he : Effect w k op k') : Fades k k' := by
  have hgone : ∀ {st : LoanStatus}, st = .repaid → st = .active → False := by
    rintro st rfl h
    cases h
  cases he with
  | looked _ => exact markAll w.now k _
  | @requested b amount threshold purpose token loan _ hf _ _ =>
    obtain ⟨ids, h⟩ := openLoan_eq ((k.markAll w.now (k.borrowerLoanIds b)).takeIds 2) loan
    rw [h]
    have hissued := issue (hk.markAll w.now (k.borrowerLoanIds b)) hf 2
    exact ((markAll w.now k _).trans hissued).congr rfl rfl
  | paid ho hs hst _ _ =>
    exact setLoan (hs.id ▸ (hk.loan_to_repay ho).1) hs.borrower (by rw [hst]; exact id)
  | recovered ho _ hs hst _ _ =>
    exact setLoan (hs.id ▸ (hk.loan_to_repay ho).1) hs.borrower (fun h => (hgone hst h).elim)
  | closed ho _ hs hst _ _ =>
    have hset := setLoan (hs.id ▸ (hk.loan_to_repay ho).1) hs.borrower (fun h => (hgone hst h).elim)
    exact (hset.trans (release _ _)).congr rfl rfl
  | paidPartial ho hs hst _ _ =>
    exact setLoan (hs.id ▸ (hk.active_record ho).2.1) hs.borrower (by rw [hst]; exact id)
  | @refinanced b amount threshold token old new loan ho hs hst _ _ hf _ _ =>
    have hl := (hk.active_record ho).2.1
    have hset := setLoan (hs.id ▸ hl) hs.borrower (fun h => (hgone hst h).elim)
    have hclosed := (hk.store hl hs (.inr hst)).release b
    exact (hset.trans (release _ b)).trans (issue hclosed (hf.congr rfl) 1)
  | pooled _ _ hp => exact pool hk hp
  | @slashed signers b loan ho _ =>
    have hset : Fades k (k.setLoan loan.id { loan with defaulted := true }) :=
      setLoan (hk.active_record ho).2.1 rfl id
    exact (hset.trans (release _ b)).congr rfl rfl
  | autoSlashed _ _ => exact refl k
  | @claimed b loan ho _ _ =>
    have hset : Fades k (k.setLoan loan.id { loan with defaulted := true }) :=
      setLoan (hk.active_record ho).2.1 rfl id
    exact (hset.trans (release _ b)).congr rfl rfl
  | @executedVote b loan ho _ | @executedPending b loan ho _ =>
    have hset : Fades k (k.setLoan loan.id { loan with status := .defaulted }) :=
      setLoan (hk.active_record ho).2.1 rfl (fun h => by cases h)
    exact (hset.trans (release _ b)).congr rfl rfl

end Fades

end LoanBook

end QuorumCredit
