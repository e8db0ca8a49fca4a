import QuorumCredit.Book
import QuorumCredit.Host.Carries
/-!
# The terms of a loan

What no run of the calls of `Contract` changes of a loan it has stored: who borrowed,
how much, for which yield and until when. The two that move a deadline, a forbearance
and an extension, are not among them.
-/

open Host Function

namespace QuorumCredit

/-- `new` is what `old` may have become: the same loan on the same terms, no less of
it repaid, and not Active again. -/
structure KeepsTerms (old new : LoanRecord) : Prop where
  id : new.id = old.id
  borrower : new.borrower = old.borrower
  amount : new.amount = old.amount
  totalYield : new.totalYield = old.totalYield
  deadline : new.deadline = old.deadline
  repaid : old.amountRepaid ≤ new.amountRepaid
  active : new.status = .active → old.status = .active

/-! ## One record -/

namespace KeepsTerms

theorem refl (loan : LoanRecord) : KeepsTerms loan loan := ⟨rfl, rfl, rfl, rfl, rfl, le_rfl, fun h => h⟩

theorem trans {a b c : LoanRecord} (h : KeepsTerms a b) (h' : KeepsTerms b c) : KeepsTerms a c where
  id := h'.id.trans h.id
  borrower := h'.borrower.trans h.borrower
  amount := h'.amount.trans h.amount
  totalYield := h'.totalYield.trans h.totalYield
  deadline := h'.deadline.trans h.deadline
  repaid := h.repaid.trans h'.repaid
  active hc := h.active (h'.active hc)

theorem putOff {a b : LoanRecord} (h : KeepsTerms a b) (secs : Nat) :
    KeepsTerms { a with deadline := a.deadline + secs } { b with deadline := b.deadline + secs } :=
  { h with deadline := congrArg (· + secs) h.deadline }

theorem flagged (loan : LoanRecord) : KeepsTerms loan { loan with defaulted := true } :=
  ⟨rfl, rfl, rfl, rfl, rfl, le_rfl, fun h => h⟩

theorem settled (loan : LoanRecord) : KeepsTerms loan { loan with status := .defaulted } :=
  ⟨rfl, rfl, rfl, rfl, rfl, le_rfl, nofun⟩

theorem mark (now : Nat) (loan : LoanRecord) : KeepsTerms loan (markRecord now loan) := by
  unfold markRecord
  split
  · exact settled loan
  · exact refl loan

theorem more {old new : LoanRecord} (hs : SameLoan old new) (hmore : old.amountRepaid < new.amountRepaid)
    (hst : new.status = old.status ∨ new.status = .repaid) : KeepsTerms old new := by
  refine ⟨hs.id, hs.borrower, hs.amount, hs.totalYield, hs.deadline, hmore.le, fun hactive => ?_⟩
  rcases hst with hst | hst
  · rw [← hst, hactive]
  · rw [hactive] at hst
    cases hst

theorem paid {now : Nat} {payment : Int} {old new : LoanRecord} (hs : SameLoan old new)
    (hst : new.status = old.status ∨ new.status = .repaid) (h : Paid now payment old new) : KeepsTerms old new := by
  have hpos := h.positive
  refine more hs ?_ hst
  rw [h.record]
  change _ < old.amountRepaid + payment
  omega

end KeepsTerms

/-! ## One call -/

namespace LoanBook

variable {k k' : LoanBook}

/-- Every loan of the first book is in the second, on its terms. -/
abbrev Carries (k k' : LoanBook) : Prop := Host.Carries KeepsTerms k.loan k'.loan

theorem Carries.markAll (now : Nat) (k : LoanBook) (ids : List Nat) : k.Carries (k.markAll now ids) := by
  intro i loan hl
  rw [markAll_loan, hl]
  split
  · exact ⟨_, rfl, .mark now loan⟩
  · exact ⟨_, rfl, .refl loan⟩

theorem Carries.issue (hk : k.Keyed) {n : Nat} {borrower : Address} {loan : LoanRecord}
    (hf : Fresh k n borrower loan) : k.Carries (k.issue loan) :=
  .add .refl (hk.unused (by rw [hf.id]; omega)) _

theorem Carries.pool {pool : List (Address × Int)} (hk : k.Keyed) {token : Address}
    (hp : PoolEffect token k pool k') : k.Carries k' := by
  induction hp with
  | nil => exact .refl .refl _
  | cons hf _ _ _ ih => exact (Carries.issue hk hf).trans .trans (ih (hk.issue hf))

theorem Carries.effect {w : World} {op : Op} (hk : k.Keyed) (he : Effect w k op k') : k.Carries k' := by
  cases he with
  | looked _ => exact .markAll w.now k _
  | @requested b amount threshold purpose token loan _ hf _ _ =>
    obtain ⟨ids, hopen⟩ := openLoan_eq ((k.markAll w.now (k.borrowerLoanIds b)).takeIds 2) loan
    rw [hopen]
    exact (Carries.markAll w.now k _).trans .trans (Carries.issue (hk.markAll w.now _) hf)
  | paid ho hs hst hpaid _ => exact .set .refl (hs.id ▸ (hk.loan_to_repay ho).1) (.paid hs (.inl hst) hpaid)
  | recovered ho _ hs hst hpaid _ | closed ho _ hs hst hpaid _ =>
    exact .set .refl (hs.id ▸ (hk.loan_to_repay ho).1) (.paid hs (.inr hst) hpaid)
  | paidPartial ho hs hst hpos hnew =>
    refine .set .refl (hs.id ▸ (hk.active_record ho).2.1) (.more hs ?_ (.inl hst))
    rw [hnew]
    exact lt_add_of_pos_right _ hpos
  | @refinanced b amount threshold token old new loan ho hs hst hmore _ hf _ _ =>
    have hl := (hk.active_record ho).2.1
    have hclosed := (hk.store hl hs (.inr hst)).release b
    have hstored : k.Carries (k.setLoan new.id new) := .set .refl (hs.id ▸ hl) (.more hs hmore.1 (.inr hst))
    exact hstored.trans .trans (Carries.issue hclosed (hf.congr rfl))
  | pooled _ _ hp => exact .pool hk hp
  | slashed ho _ | claimed ho _ _ => exact .set .refl (hk.active_record ho).2.1 (.flagged _)
  | autoSlashed _ _ => exact .refl .refl _
  | executedVote ho _ | executedPending ho _ => exact .set .refl (hk.active_record ho).2.1 (.settled _)

end LoanBook

/-! ## Every run -/

/-- No run takes a stored loan away, changes its terms, takes back what was repaid on
it or makes it Active again. -/
theorem terms_kept {h s} (hr : History h s) : Along (fun s₀ _ => s₀.store.book.Carries s.store.book) h := by
  obtain ⟨world, bank, hr⟩ := hr
  refine Run.along (Q := fun s s' => s.store.book.Carries s'.store.book) (.trans .trans) (fun hr hst => ?_) hr
  cases hst with
  | done hd => exact .effect (History.keyed ⟨world, bank, hr⟩) (effect_of hd)
  | refused _ | elsewhere _ _ => exact .refl .refl _

theorem terms_kept_slashedLoan :
    Along (fun s₀ _ => s₀.store.book.Carries (start.play slashedLoan).store.book) (start.trace [] slashedLoan) :=
  terms_kept (start_history slashedLoan)

end QuorumCredit
