import QuorumCredit.Settling
import QuorumCredit.WithdrawalQueue
/-!
# Backed loans

A loan that is open has a vouch behind it. The paths that issue a loan see to
it, by the cap on what they lend, and most of what may happen to the vouches
afterwards keeps it: a record is handed on only without a loan, and a queued
withdrawal leaves the record where it is. Two calls take the last record away
from under a loan, and one settles the vouches and leaves the loan.
-/

open Host Function

namespace QuorumCredit

/-! ## The loan a pointer leads to -/

/-- `new` is `old` with the status it had, unless `old` was overdue or no longer active. -/
structure Follows (now : Nat) (old new : LoanRecord) : Prop where
  deadline : new.deadline = old.deadline
  status : new.status = old.status ∨ new.status ≠ .active ∧ (old.status ≠ .active ∨ old.deadline ≤ now)

theorem Follows.refl (now : Nat) (loan : LoanRecord) : Follows now loan loan := ⟨rfl, .inl rfl⟩

theorem Follows.trans {now : Nat} {old mid new : LoanRecord} (h : Follows now old mid) (h' : Follows now mid new) :
    Follows now old new := by
  refine ⟨h'.deadline.trans h.deadline, ?_⟩
  rcases h'.status with hnew | ⟨hnew, hmid⟩
  · rcases h.status with hst | ⟨hst, hold⟩
    · exact .inl (hnew.trans hst)
    · exact .inr ⟨hnew ▸ hst, hold⟩
  · rcases h.status with hst | ⟨-, hold⟩
    · rw [hst, h.deadline] at hmid
      exact .inr ⟨hnew, hmid⟩
    · exact .inr ⟨hnew, hold⟩

theorem Follows.mark (now : Nat) (loan : LoanRecord) : Follows now loan (markRecord now loan) := by
  unfold markRecord
  split
  case isTrue hd =>
    simp only [isLoanDefaulted, Bool.and_eq_true, decide_eq_true_eq] at hd
    exact ⟨rfl, .inr ⟨by simp, .inr (by omega)⟩⟩
  case isFalse => exact .refl now loan

namespace LoanBook

variable {k k' : LoanBook} {b : Address}

/-- Loans issued to others are nothing to a borrower. -/
theorem record_issue (hk : k.Keyed) {n : Nat} {borrower : Address} {loan : LoanRecord} (hf : Fresh k n borrower loan)
    (hne : b ≠ borrower) : ((k.takeIds (n + 1)).issue loan).getActiveLoanRecord b = k.getActiveLoanRecord b := by
  unfold getActiveLoanRecord
  rw [issue_activeLoan, hf.borrower, update_of_ne hne, takeIds_activeLoan]
  cases hptr : k.activeLoan b with
  | none => rfl
  | some id =>
    obtain ⟨old, hold, -⟩ := hk.active hptr
    have hid : id ≠ loan.id := by
      rintro rfl
      have hnew := hf.id
      rw [hk.unused (by omega)] at hold
      cases hold
    exact update_of_ne hid ..

theorem record_pool {token : Address} {pool : List (Address × Int)} (hk : k.Keyed) (hp : PoolEffect token k pool k')
    (hb : ∀ e ∈ pool, e.1 ≠ b) : k'.getActiveLoanRecord b = k.getActiveLoanRecord b := by
  induction hp with
  | nil => rfl
  | cons hf _ _ _ ih =>
    rw [List.forall_mem_cons] at hb
    rw [ih (hk.issue hf) hb.2, record_issue hk hf hb.1.symm]

/-- Issuing leaves its borrower with an active loan. -/
theorem issue_active (k : LoanBook) {n m : Nat} {borrower : Address} {loan : LoanRecord}
    (hf : Fresh k n borrower loan) :
    ((k.takeIds m).issue loan).hasActiveLoan borrower = true := by
  have hptr : ((k.takeIds m).issue loan).activeLoan borrower = some loan.id := by
    rw [← hf.borrower]
    exact update_self ..
  refine hasActiveLoan_iff.2 ⟨loan, ?_, hf.status⟩
  rw [getActiveLoanRecord, hptr]
  exact update_self ..

/-- And a pool each of its borrowers. -/
theorem pool_active {token : Address} {pool : List (Address × Int)} (hk : k.Keyed) (hp : PoolEffect token k pool k')
    (hb : ∃ e ∈ pool, e.1 = b) : k'.hasActiveLoan b = true := by
  induction hp with
  | nil =>
    obtain ⟨e, he, -⟩ := hb
    cases he
  | @cons k borrower amount loan rest k' hf _ _ hrest ih =>
    by_cases hlater : ∃ e ∈ rest, e.1 = b
    · exact ih (hk.issue hf) hlater
    · -- the last loan of the pool that is issued to `b`
      obtain ⟨e, he, rfl⟩ := hb
      rcases List.mem_cons.1 he with rfl | he
      · have hothers : ∀ e ∈ rest, e.1 ≠ borrower := fun e he h => hlater ⟨e, he, h⟩
        rw [hasActiveLoan, record_pool (hk.issue hf) hrest hothers]
        exact k.issue_active hf
      · exact absurd ⟨e, he, rfl⟩ hlater

/-- The loan `b`'s pointer leads to in `k'` follows the one it leads to in `k`. -/
def Leads (now : Nat) (b : Address) (k k' : LoanBook) : Prop :=
  ∀ new, k'.getActiveLoanRecord b = some new → ∃ old, k.getActiveLoanRecord b = some old ∧ Follows now old new

namespace Leads

variable {now : Nat} {b : Address} {k k' k'' : LoanBook}

theorem of_eq (h : k'.getActiveLoanRecord b = k.getActiveLoanRecord b) : Leads now b k k' :=
  fun new hnew => ⟨new, h ▸ hnew, .refl now new⟩

theorem trans (h : Leads now b k k') (h' : Leads now b k' k'') : Leads now b k k'' := by
  intro new hnew
  obtain ⟨mid, hmid, hf⟩ := h' new hnew
  obtain ⟨old, hold, hf'⟩ := h mid hmid
  exact ⟨old, hold, hf'.trans hf⟩

/-- Without a pointer there is nothing to follow. -/
theorem of_none (h : k'.activeLoan b = none) : Leads now b k k' := by
  intro new hnew
  rw [getActiveLoanRecord, h] at hnew
  cases hnew

theorem markAll (hk : k.Keyed) (ids : List Nat) : Leads now b k (k.markAll now ids) := by
  intro new hnew
  rw [hk.active_markAll] at hnew
  obtain ⟨old, hold, rfl⟩ := Option.map_eq_some_iff.1 hnew
  refine ⟨old, hold, ?_⟩
  split
  · exact .mark now old
  · exact .refl now old

/-- Storing a borrower's loan anew is nothing to the others, and to the borrower what the record is. -/
theorem setLoan (hk : k.Keyed) {id : Nat} {old new : LoanRecord} (ho : k.loan id = some old)
    (hf : old.borrower = b → Follows now old new) : Leads now b k (k.setLoan id new) := by
  intro new' hnew
  obtain ⟨i, hptr, hl⟩ := Option.bind_eq_some_iff.1 hnew
  change k.activeLoan b = some i at hptr
  obtain ⟨old', hold', hb⟩ := hk.active hptr
  have hrecord : k.getActiveLoanRecord b = some old' := by rw [getActiveLoanRecord, hptr]; exact hold'
  refine ⟨old', hrecord, ?_⟩
  rcases setLoan_cases hl with ⟨rfl, rfl⟩ | ⟨-, hl⟩
  · rw [ho] at hold'
    cases hold'
    exact hf hb
  · rw [hold'] at hl
    cases hl
    exact .refl now _

/-- The same where the pointer of the loan's borrower goes. -/
theorem settle (hk : k.Keyed) {id : Nat} {old : LoanRecord} (ho : k.loan id = some old) (new : LoanRecord) :
    Leads now b k ((k.setLoan id new).setActiveLoan old.borrower none) := by
  by_cases hb : old.borrower = b
  · exact of_none (hb ▸ update_self ..)
  · have hset : Leads now b k (k.setLoan id new) := setLoan hk ho fun h => absurd h hb
    refine hset.trans (of_eq ?_)
    rw [getActiveLoanRecord, setActiveLoan_activeLoan, update_of_ne (Ne.symm hb)]
    rfl

end Leads

/-- A borrower that is issued no loan keeps the one it has, or loses it. -/
theorem leads_effect {w : World} {op : Op} (hk : k.Keyed) (he : Effect w k op k') (hb : b ∉ op.issuesTo) :
    Leads w.now b k k' := by
  cases he with
  | looked _ => exact .markAll hk _
  | @requested borrower amount threshold purpose token loan _ hf _ _ =>
    have hne : b ≠ borrower := fun h => hb (h ▸ List.mem_singleton_self _)
    obtain ⟨ids, hopen⟩ := openLoan_eq ((k.markAll w.now (k.borrowerLoanIds borrower)).takeIds 2) loan
    rw [hopen]
    exact (Leads.markAll hk _).trans (.of_eq (record_issue (hk.markAll w.now _) hf hne))
  | paid ho hs hst _ _ => exact .setLoan hk (hs.id ▸ (hk.loan_to_repay ho).1) fun _ => ⟨hs.deadline, .inl hst⟩
  | @recovered _ _ old new ho hd hs hst _ _ =>
    have hold : old.status ≠ .active := by simp [hd]
    have hnew : new.status ≠ .active := by simp [hst]
    exact .setLoan hk (hs.id ▸ (hk.loan_to_repay ho).1) fun _ => ⟨hs.deadline, .inr ⟨hnew, .inl hold⟩⟩
  | closed ho _ hs _ _ _ =>
    obtain ⟨hl, rfl, -⟩ := hk.loan_to_repay ho
    exact .settle hk (hs.id ▸ hl) _
  | paidPartial ho hs hst _ _ =>
    exact .setLoan hk (hs.id ▸ (hk.active_record ho).2.1) fun _ => ⟨hs.deadline, .inl hst⟩
  | @refinanced borrower amount threshold token old new loan ho hs hst _ _ hf _ _ =>
    have hne : b ≠ borrower := fun h => hb (h ▸ List.mem_singleton_self _)
    obtain ⟨-, hl, rfl⟩ := hk.active_record ho
    have hclosed := (hk.store hl hs (.inr hst)).release old.borrower
    exact (Leads.settle hk (hs.id ▸ hl) new).trans (.of_eq (record_issue hclosed (hf.congr rfl) hne))
  | pooled _ _ hp =>
    refine .of_eq (record_pool hk hp ?_)
    rintro e he rfl
    exact hb (List.of_mem_zip he).1
  | @slashed _ _ loan ho _ | @claimed _ loan ho _ _ =>
    obtain ⟨-, hl, rfl⟩ := hk.active_record ho
    have hset : Leads w.now b k
        ((k.setLoan loan.id { loan with defaulted := true }).setActiveLoan loan.borrower none) := .settle hk hl _
    exact hset
  | @executedVote _ loan ho _ | @executedPending _ loan ho _ =>
    obtain ⟨-, hl, rfl⟩ := hk.active_record ho
    have hset : Leads w.now b k
        ((k.setLoan loan.id { loan with status := .defaulted }).setActiveLoan loan.borrower none) := .settle hk hl _
    exact hset
  | autoSlashed _ _ => exact .of_eq rfl

/-- A borrower that is issued a loan has an active one. -/
theorem issued_effect {w : World} {op : Op} (hk : k.Keyed) (he : Effect w k op k') (hb : b ∈ op.issuesTo) :
    k'.hasActiveLoan b = true := by
  cases he with
  | looked honly =>
    have hnone : op.issuesTo = [] := by cases op <;> first | rfl | cases honly
    rw [hnone] at hb
    cases hb
  | @requested borrower amount threshold purpose token loan _ hf _ _ =>
    obtain rfl := List.mem_singleton.1 hb
    obtain ⟨ids, hopen⟩ := openLoan_eq ((k.markAll w.now (k.borrowerLoanIds b)).takeIds 2) loan
    rw [hopen]
    exact issue_active _ hf
  | @refinanced borrower amount threshold token old new loan _ _ _ _ _ hf _ _ =>
    obtain rfl := List.mem_singleton.1 hb
    exact issue_active ((k.setLoan new.id new).setActiveLoan b none) (hf.congr rfl)
  | @pooled signers borrowers amounts k' hlen _ hp =>
    refine pool_active hk hp ?_
    rw [← List.map_fst_zip hlen.le] at hb
    exact List.mem_map.1 hb
  | _ => cases hb

theorem Leads.active {now : Nat} (h : Leads now b k k') (hactive : k'.hasActiveLoan b = true) :
    k.hasActiveLoan b = true := by
  obtain ⟨new, hnew, hst⟩ := hasActiveLoan_iff.1 hactive
  obtain ⟨old, hold, hf⟩ := h new hnew
  refine hasActiveLoan_iff.2 ⟨old, hold, ?_⟩
  rcases hf.status with heq | ⟨hne, -⟩
  · exact heq ▸ hst
  · exact absurd hst hne

/-- A loan a pointer leads to is active as long as it has not expired. -/
def Current (now : Nat) (k : LoanBook) : Prop :=
  ∀ b loan, k.getActiveLoanRecord b = some loan → now < loan.deadline → loan.status = .active

theorem Current.later {now later : Nat} (h : k.Current now) (hle : now ≤ later) : k.Current later :=
  fun b loan hl hnow => h b loan hl (by omega)

theorem Current.effect {w : World} {op : Op} (hk : k.Keyed) (h : k.Current w.now) (he : Effect w k op k') :
    k'.Current w.now := by
  intro b new hnew hnow
  by_cases hb : b ∈ op.issuesTo
  · obtain ⟨loan, hloan, hst⟩ := hasActiveLoan_iff.1 (issued_effect hk he hb)
    rw [hnew] at hloan
    cases hloan
    exact hst
  · obtain ⟨old, hold, hf⟩ := leads_effect hk he hb new hnew
    rw [hf.deadline] at hnow
    have hactive := h b old hold hnow
    rcases hf.status with hst | ⟨-, hold | hexpired⟩
    · exact hst.trans hactive
    · exact absurd hactive hold
    · omega

end LoanBook

section Calls

variable {ctx : Context} {s : Store}

theorem outstandingTerms_unexpired (old : LoanRecord) (newAmount : Int) (t : Terms) :
    Yields (outstandingTerms old newAmount) ctx t fun _ _ => ctx.now < old.deadline := by
  unfold outstandingTerms
  rw [yields_bind, yields_ask, yields_bind, yields_require]
  intro hexpires _ _ _
  exact hexpires

/-- A loan is refinanced before it expires. -/
theorem refinanceLoan_unexpired (borrower : Address) (newAmount newThreshold : Int) (newToken : Address) :
    Yields (refinanceLoan borrower newAmount newThreshold newToken) ctx s fun _ _ =>
      ∃ old, s.book.getActiveLoanRecord borrower = some old ∧ ctx.now < old.deadline := by
  unfold refinanceLoan
  simp only [yields_bind, yields_look, yields_orFail, lift_eq_zoom, lift_self]
  refine yields_keeps Store.book fun _ s₁ h₁ => ?_
  refine yields_keeps Store.book fun _ s₂ h₂ => ?_
  refine yields_keeps Store.book fun _ s₃ h₃ => ?_
  intro old hold
  rw [h₃, h₂, h₁] at hold
  refine (yields_zoom _ _ _ _).2 ((outstandingTerms_unexpired old newAmount _).mono fun terms _ hexpires => ?_)
  have hfound : ∃ old, s.book.getActiveLoanRecord borrower = some old ∧ ctx.now < old.deadline := ⟨old, hold, hexpires⟩
  -- the rest of the call changes nothing about that
  refine (yields_true _ _ _).mono fun _ _ _ => ?_
  refine (yields_true _ _ _).mono fun _ _ _ => ?_
  refine (yields_true _ _ _).mono fun _ _ _ => ?_
  refine (yields_true _ _ _).mono fun _ _ _ => ?_
  exact (yields_true _ _ _).mono fun _ _ _ => hfound

end Calls

/-! ## What takes the last record away -/

/-- Every active loan has a vouch behind it. -/
def Backed (s : Store) : Prop :=
  ∀ b, s.book.hasActiveLoan b = true → ∃ v vs, s.vault.vouching.vouches b = some (v :: vs)

theorem backed_iff {s : Store} : Backed s ↔ ∀ b, s.book.hasActiveLoan b = true → s.records b ≠ [] := by
  refine forall_congr' fun b => imp_congr_right fun _ => ?_
  change _ ↔ (s.vault.vouching.vouches b).getD [] ≠ []
  cases s.vault.vouching.vouches b with
  | none => simp
  | some vouches => cases vouches <;> simp

/-- What a call must find to leave every active loan backed. -/
def Op.keepsBacked (s : State) : Op → Prop
  | .withdrawVouch _ b => s.store.book.hasActiveLoan b = true → 2 ≤ (s.store.records b).length
  | .decreaseStake u b n => s.store.book.hasActiveLoan b = true →
    ∀ v, findVouch u (s.store.records b) = some v → n = v.stake → 2 ≤ (s.store.records b).length
  | .autoSlash b => s.store.book.hasActiveLoan b = false
  | op => ∀ e ∈ op.issues s.world, s.store.records e.borrower = [] → 0 < e.amount

variable {s : State} {vouches : List VouchRecord}

theorem removeVouch_ne_nil {u : Address} {v : VouchRecord} (hfind : findVouch u vouches = some v) :
    removeVouch u vouches ≠ [] ↔ 2 ≤ vouches.length := by
  cases vouches with
  | nil => cases hfind
  | cons w rest =>
    unfold removeVouch
    split
    case isTrue => cases rest <;> simp
    case isFalse hw =>
      have hrest : findVouch u rest = some v := by simpa [findVouch, hw] using hfind
      cases rest with
      | nil => cases hrest
      | cons => simp

theorem setStake_ne_nil {u : Address} {v : VouchRecord} (hfind : findVouch u vouches = some v) (stake : Int) :
    setStake u stake vouches ≠ [] := by
  cases vouches with
  | nil => cases hfind
  | cons w rest =>
    unfold setStake
    split <;> simp

theorem reduceStake_ne_nil {u : Address} {v : VouchRecord} (hfind : findVouch u vouches = some v) (n : Int) :
    reduceStake v n vouches ≠ [] ↔ (n = v.stake → 2 ≤ vouches.length) := by
  obtain ⟨-, rfl⟩ := findVouch_some hfind
  unfold reduceStake
  split
  case isTrue hn => simpa [hn] using removeVouch_ne_nil hfind
  case isFalse hn => simpa [hn] using setStake_ne_nil hfind _

/-- A step that changes the records behind one borrower. -/
theorem Backed.update {s t : Store} (hb : Backed s)
    (hactive : ∀ a, t.book.hasActiveLoan a = true → s.book.hasActiveLoan a = true)
    {b : Address} {rest : List VouchRecord} (hr : t.records = Function.update s.records b rest) :
    Backed t ↔ (t.book.hasActiveLoan b = true → rest ≠ []) := by
  rw [backed_iff, hr]
  constructor
  · intro h hb'
    simpa using h b hb'
  · intro h a ha
    by_cases hab : a = b
    · subst hab
      simpa using h ha
    · rw [update_of_ne hab]
      exact backed_iff.1 hb a (hactive a ha)

theorem Backed.kept {s t : Store} (hb : Backed s)
    (hactive : ∀ a, t.book.hasActiveLoan a = true → s.book.hasActiveLoan a = true)
    (hr : t.records = s.records) : Backed t := by
  refine backed_iff.2 fun a ha => ?_
  rw [hr]
  exact backed_iff.1 hb a (hactive a ha)

theorem Added.ne_nil {w : World} {k : LoanBook} {xs ys : Records} (h : Added w k xs ys) {b : Address} (hb : xs b ≠ []) :
    ys b ≠ [] := by
  induction h with
  | nil => exact hb
  | @cons xs a record ys _ _ ih =>
    refine ih ?_
    by_cases hab : b = a
    · rw [hab, update_self]
      simp
    · rwa [update_of_ne hab]

/-! ## Every call -/

section Steps

variable {w : World} {s t : Store} {op : Op}

/-- What is asked of the calls that issue nothing and take no record away from under a loan. -/
theorem Op.keepsBacked_of_nil {s : State} {e : Issue} (he : e ∈ ([] : List Issue)) :
    s.store.records e.borrower = [] → 0 < e.amount := by
  cases he

/-- A call that looks at no loan leaves the book alone. -/
theorem Effect.book_kept {k k' : LoanBook} (he : Effect w k op k') (hop : op.onlyLooks = true)
    (hnone : op.looksAt w k = []) : k' = k := by
  cases he with
  | looked _ =>
    rw [hnone]
    rfl
  | _ => cases hop

theorem Staked.backed (h : Staked w t.book s.vault t.vault op) (he : Effect w s.book op t.book) (hb : Backed s)
    (hactive : ∀ a, t.book.hasActiveLoan a = true → s.book.hasActiveLoan a = true) :
    Backed t ↔ op.keepsBacked ⟨w, s⟩ := by
  have hrecords : t.records = t.vault.vouching.vouchesOf := rfl
  have hbefore : s.vault.vouching.vouchesOf = s.records := rfl
  have hidle : ∀ {b}, t.book.hasActiveLoan b = false → ∀ rest : List VouchRecord, t.book.hasActiveLoan b = true →
      rest ≠ [] := by
    intro b hf rest ht
    rw [hf] at ht
    cases ht
  cases h with
  | vouched hc | batched hc =>
    refine iff_of_true (backed_iff.2 fun b ht => ?_) fun e he => Op.keepsBacked_of_nil he
    exact hc.added.ne_nil (backed_iff.1 hb b (hactive b ht))
  | increased hfind _ _ _ hy =>
    rw [hy, Vouching.saved_vouchesOf] at hrecords
    have hkept := (hb.update hactive hrecords).2 fun _ => setStake_ne_nil hfind _
    exact iff_of_true hkept fun e he => Op.keepsBacked_of_nil he
  | @decreased u b n v hfind _ _ _ hfree hy =>
    rw [hy, Vouching.saved_vouchesOf] at hrecords
    refine iff_of_true ((hb.update hactive hrecords).2 (hidle hfree _)) fun ht => ?_
    rw [he.book_kept rfl rfl] at hfree
    exact absurd (hfree.symm.trans ht) (by decide)
  | @decreasedLater u b n v hfind _ _ hloan hy =>
    rw [hy, Vouching.queued_vouchesOf, Vouching.saved_vouchesOf] at hrecords
    rw [hb.update hactive hrecords, he.book_kept rfl rfl, reduceStake_ne_nil hfind]
    refine imp_congr_right fun _ => ⟨fun h v' hfind' => ?_, fun h => h v hfind⟩
    obtain rfl : v = v' := Option.some.inj (hfind.symm.trans hfind')
    exact h
  | withdrawn _ _ hfree hy =>
    rw [hy, Vouching.saved_vouchesOf] at hrecords
    refine iff_of_true ((hb.update hactive hrecords).2 (hidle hfree _)) fun ht => ?_
    rw [he.book_kept rfl rfl] at hfree
    exact absurd (hfree.symm.trans ht) (by decide)
  | withdrawnLater hfind hloan hy =>
    rw [hy, Vouching.queued_vouchesOf, Vouching.saved_vouchesOf] at hrecords
    rw [hb.update hactive hrecords, he.book_kept rfl rfl]
    exact imp_congr_right fun _ => removeVouch_ne_nil hfind
  | requested _ _ hfree hy =>
    rw [hy, Vouching.setVouches_records] at hrecords
    exact iff_of_true ((hb.update hactive hrecords).2 (hidle hfree _)) fun e he => Op.keepsBacked_of_nil he
  | requestedLater _ _ _ _ hy | halvedLater _ _ hy =>
    rw [hy, Vouching.queued_vouchesOf] at hrecords
    exact iff_of_true (hb.kept hactive hrecords) fun e he => Op.keepsBacked_of_nil he
  | halved hfind _ _ _ hy =>
    rw [hy, Vouching.setVouches_records] at hrecords
    have hkept := (hb.update hactive hrecords).2 fun _ => setStake_ne_nil hfind _
    exact iff_of_true hkept fun e he => Op.keepsBacked_of_nil he
  | transferred _ _ _ hfree hy =>
    rw [hy, Vouching.transferred_vouchesOf] at hrecords
    exact iff_of_true ((hb.update hactive hrecords).2 (hidle hfree _)) fun e he => Op.keepsBacked_of_nil he
  | split _ _ _ _ _ hfree hy =>
    rw [hy, Vouching.split_vouchesOf] at hrecords
    exact iff_of_true ((hb.update hactive hrecords).2 (hidle hfree _)) fun e he => Op.keepsBacked_of_nil he
  | @rotated u old new v _ _ hfree _ hy =>
    rw [hy, Vouching.moved_vouchesOf] at hrecords
    refine iff_of_true (backed_iff.2 fun b ht => ?_) fun e he => Op.keepsBacked_of_nil he
    rw [hrecords]
    by_cases hnew : b = new
    · rw [hnew, update_self]
      simp
    · rw [update_of_ne hnew]
      have hold : b ≠ old := by
        rintro rfl
        rw [hfree] at ht
        cases ht
      rw [update_of_ne hold]
      exact backed_iff.1 hb b (hactive b ht)

/-- A payment leaves the records, unless it closes a loan that has not defaulted. -/
theorem Resolved.records_kept {b : Address} {n : Int} (h : Resolved w s t (.repay b n))
    (hopen : ∀ loan, s.book.loanToRepay b = some loan → n = loan.outstandingAt w.now → loan.status = .defaulted) :
    t.records = s.records := by
  cases h with
  | paid _ _ _ hvault =>
    rw [Store.records, hvault]
    rfl
  | recovered _ _ hvouching => exact congrArg Vouching.vouchesOf hvouching
  | closed ho hst heq _ => exact absurd (hopen _ ho heq) hst
  | slashed hslash => rcases hslash with ⟨_, h⟩ | h <;> cases h
  | executed hexecutes => cases hexecutes

theorem Resolved.backed {b : Address} (h : Resolved w s t op) (hop : op.resolves = some b)
    (he : Effect w s.book op t.book)
    (hdropped : Dropped s.records b t.records) (hb : Backed s)
    (hactive : ∀ a, t.book.hasActiveLoan a = true → s.book.hasActiveLoan a = true) :
    Backed t ↔ op.keepsBacked ⟨w, s⟩ := by
  obtain ⟨rest, -, hrecords⟩ := hdropped
  have hgone : t.book.activeLoan b = none → Backed t := by
    intro hnone
    refine (hb.update hactive hrecords).2 fun ht => ?_
    obtain ⟨loan, hloan, -⟩ := LoanBook.hasActiveLoan_iff.1 ht
    rw [LoanBook.getActiveLoanRecord, hnone] at hloan
    cases hloan
  generalize ht : t.book = k' at he
  cases he with
  | paid ho _ _ _ hless =>
    refine iff_of_true (hb.kept hactive (h.records_kept fun loan hloan heq => ?_)) fun e he => Op.keepsBacked_of_nil he
    obtain rfl := Option.some.inj (ho.symm.trans hloan)
    omega
  | recovered ho hd _ _ _ _ =>
    refine iff_of_true (hb.kept hactive (h.records_kept fun loan hloan _ => ?_)) fun e he => Op.keepsBacked_of_nil he
    obtain rfl := Option.some.inj (ho.symm.trans hloan)
    exact hd
  | closed | slashed | claimed | executedVote | executedPending =>
    cases hop
    refine iff_of_true (hgone ?_) fun e he => Op.keepsBacked_of_nil he
    rw [ht]
    exact update_self ..
  | @autoSlashed b' loan _ _ =>
    cases h with
    | slashed hslash _ _ _ hvault =>
      rcases hslash with ⟨_, h⟩ | h <;> cases h
      have hempty : t.records = Function.update s.records b' [] := by
        rw [Store.records, hvault]
        exact Vouching.removeVouches_records _ _
      rw [hb.update hactive hempty, ht]
      simp [Op.keepsBacked]
    | executed hexecutes => cases hexecutes
  | looked honly =>
    have hnone : op.resolves = none := by cases op <;> first | rfl | cases honly
    rw [hnone] at hop
    cases hop
  | _ => cases hop

end Steps

theorem Op.issuesTo_of_issue {w : World} {op : Op} {e : Issue} (he : e ∈ op.issues w) : e.borrower ∈ op.issuesTo := by
  cases op
  case requestLoan | refinanceLoan =>
    rw [List.mem_singleton.1 he]
    exact List.mem_singleton_self _
  case createLoanPool =>
    obtain ⟨entry, hentry, rfl⟩ := List.mem_map.1 he
    exact (List.of_mem_zip hentry).1
  all_goals cases he

theorem Effect.issue_of_mem {w : World} {k k' : LoanBook} {op : Op} (he : Effect w k op k') {b : Address}
    (hb : b ∈ op.issuesTo) : ∃ e ∈ op.issues w, e.borrower = b := by
  cases he with
  | looked honly =>
    have hnone : op.issuesTo = [] := by cases op <;> first | rfl | cases honly
    rw [hnone] at hb
    cases hb
  | requested | refinanced =>
    obtain rfl := List.mem_singleton.1 hb
    exact ⟨_, List.mem_singleton_self _, rfl⟩
  | @pooled signers borrowers amounts k' hlen _ _ =>
    rw [← List.map_fst_zip hlen.le] at hb
    obtain ⟨entry, hentry, rfl⟩ := List.mem_map.1 hb
    exact ⟨_, List.mem_map.2 ⟨entry, hentry, rfl⟩, rfl⟩
  | _ => cases hb

theorem Op.keepsBacked_iff {op : Op} (hop : op.stakes = false) (hnone : op.resolves = none) :
    op.keepsBacked s ↔ ∀ e ∈ op.issues s.world, s.store.records e.borrower = [] → 0 < e.amount := by
  cases op
  case withdrawVouch | decreaseStake => cases hop
  case autoSlash => cases hnone
  all_goals rfl

/-- Without a vouch a path counts nothing behind a loan. -/
theorem Op.counted_nil {op : Op} {e : Issue} (h : s.store.records e.borrower = []) : op.counted s e = 0 := by
  have hrecords : s.store.vault.vouching.vouchesOf e.borrower = [] := h
  cases op <;> simp [Op.counted, weightedTotal, inToken, stakeSum, hrecords]

/-- A call that goes through and neither vouches nor settles. -/
theorem issued_backed {c : Call} {t : Store} (hk : s.store.book.Keyed) (hc : s.store.book.Current s.world.now)
    (hb : Backed s.store) (h : exec c s = .ok t) (hop : c.op.stakes = false) (hnone : c.op.resolves = none) :
    Backed t ↔ c.op.keepsBacked s := by
  have he := effect_of h
  have hrecords := records_kept h hop hnone
  rw [Op.keepsBacked_iff hop hnone, backed_iff, hrecords]
  constructor
  · intro hbacked e hissue hempty
    exact absurd hempty (hbacked _ (LoanBook.issued_effect hk he (Op.issuesTo_of_issue hissue)))
  · intro hkeeps b hactive hempty
    by_cases hissued : b ∈ c.op.issuesTo
    · obtain ⟨e, hissue, rfl⟩ := he.issue_of_mem hissued
      have hpos := hkeeps e hissue hempty
      cases hcap : c.op.checksCap with
      | true =>
        have hcounted := (cap_of h hissue).2 hcap
        rw [Op.counted_nil hempty, Int.zero_mul, Int.zero_tdiv] at hcounted
        omega
      | false =>
        obtain ⟨signers, op⟩ := c
        cases op with
        | refinanceLoan borrower amount threshold token =>
          rw [List.mem_singleton.1 hissue] at hempty
          obtain ⟨old, hold, hexpires⟩ := yields_exec (c := ⟨signers, .refinanceLoan borrower amount threshold token⟩)
            (refinanceLoan_unexpired borrower amount threshold token) h
          have hactive := LoanBook.hasActiveLoan_iff.2 ⟨old, hold, hc borrower old hold hexpires⟩
          exact backed_iff.1 hb borrower hactive hempty
        | _ => cases hcap
    · exact backed_iff.1 hb b ((LoanBook.leads_effect hk he hissued).active hactive) hempty

/-- What the loan book has to be for a call to be judged. -/
structure LoanBook.InOrder (now : Nat) (k : LoanBook) : Prop where
  keyed : k.Keyed
  solid : k.Solid
  current : k.Current now

theorem LoanBook.InOrder.effect {k k' : LoanBook} {w : World} {op : Op} (h : k.InOrder w.now) (he : Effect w k op k') :
    k'.InOrder w.now :=
  ⟨h.keyed.effect he, h.solid.effect h.keyed he, h.current.effect h.keyed he⟩

theorem LoanBook.inOrder_empty (now : Nat) : LoanBook.empty.InOrder now := by
  refine ⟨keyed_empty, ?_, ?_⟩
  · intro id loan hl
    cases hl
  · intro b loan hl
    cases hl

/-- A call that goes through leaves every active loan backed exactly when it finds what it must. -/
theorem backed_step {c : Call} {t : Store} (hbook : s.store.book.InOrder s.world.now) (hb : Backed s.store)
    (h : exec c s = .ok t) : Backed t ↔ c.op.keepsBacked s := by
  have he := effect_of h
  by_cases hop : c.op.stakes = true
  · have hnone : c.op.issuesTo = [] := by cases hc : c.op <;> first | rfl | (rw [hc] at hop; cases hop)
    refine (staked_of h hop).backed he hb fun b hactive => ?_
    exact (LoanBook.leads_effect hbook.keyed he (hnone ▸ List.not_mem_nil)).active hactive
  · have hop := Bool.eq_false_of_not_eq_true hop
    cases hresolves : c.op.resolves with
    | none => exact issued_backed hbook.keyed hbook.current hb h hop hresolves
    | some b =>
      have hnone : c.op.issuesTo = [] := by
        cases hc : c.op <;> first | rfl | (rw [hc] at hresolves; cases hresolves)
      obtain ⟨b', hb', hdropped⟩ := dropped_of h hop
      rw [hresolves] at hb'
      obtain rfl : b = b' := by simpa using hb'
      refine (resolved_of hbook.solid hbook.keyed h hresolves).backed hresolves he hdropped hb fun a hactive => ?_
      exact (LoanBook.leads_effect hbook.keyed he (hnone ▸ List.not_mem_nil)).active hactive

/-! ## Every run -/

/-- What happens in a run: something in the contract or elsewhere, or the queue of a borrower is processed. -/
inductive BackingMove where
  | act (m : Move)
  | processQueue (b : Address)

inductive BackingStep : State → BackingMove → State → Prop
  | act {s m s'} : Step s m s' → BackingStep s (.act m) s'
  | processed {s b t} : s.processed b = some t → BackingStep s (.processQueue b) { s with store := t }
  | trapped {s b} : s.processed b = none → BackingStep s (.processQueue b) s

/-- What a step must find if it goes through: a call what is said above, and the
processing of a queue, with an active loan, a record that the queue does not name. -/
def BackingMove.keepsBacked (s : State) : BackingMove → Prop
  | .act m => WhenDone (fun s op => op.keepsBacked s) s m
  | .processQueue b =>
    (∃ t, s.processed b = some t) → s.store.book.hasActiveLoan b = true → s.store.vault.unqueued b ≠ []

theorem Vault.drained_records (x : Vault) (w : World) (b : Address) :
    (x.drained w b).records = update x.records b (x.unqueued b) := by
  unfold drained
  split
  case isTrue h =>
    rw [unqueued, h, QuorumCredit.unqueued]
    exact (update_eq_self b x.records).symm
  case isFalse => exact Vouching.setVouches_records x.vouching b _

/-- Processing a queue changes the vault, to the drained one. -/
theorem processed_spec {b : Address} {t : Store} (h : s.processed b = some t) :
    t = { s.store with vault := s.store.vault.drained s.world b } := by
  unfold State.processed at h
  split at h
  case h_1 u x hrun =>
    cases h
    rw [processWithdrawalQueue_spec b _ u x hrun]
  case h_2 => cases h

theorem backingStep_book {s' : State} {m : BackingMove} (h : BackingStep s m s')
    (hbook : s.store.book.InOrder s.world.now) : s'.store.book.InOrder s'.world.now := by
  cases h with
  | act h =>
    cases h with
    | done hd => exact hbook.effect (effect_of hd)
    | refused _ => exact hbook
    | elsewhere hnow _ => exact ⟨hbook.keyed, hbook.solid, hbook.current.later hnow⟩
  | processed h =>
    obtain rfl := processed_spec h
    exact hbook
  | trapped _ => exact hbook

theorem backingStep_backed {s' : State} {m : BackingMove} (h : BackingStep s m s')
    (hbook : s.store.book.InOrder s.world.now) (hb : Backed s.store) : Backed s'.store ↔ m.keepsBacked s := by
  cases h with
  | act h =>
    cases h with
    | done hd =>
      rw [backed_step hbook hb hd]
      exact ⟨fun h _ => h, fun h => h ⟨_, hd⟩⟩
    | @refused c e hrefused =>
      refine iff_of_true hb ?_
      rintro ⟨t, hd⟩
      rw [hrefused] at hd
      cases hd
    | elsewhere _ _ => exact iff_of_true hb trivial
  | @processed b t h =>
    have hprocessed : ∃ t, s.processed b = some t := ⟨t, h⟩
    obtain rfl := processed_spec h
    have hafter := hb.update (t := { s.store with vault := s.store.vault.drained s.world b }) (fun _ => id)
      (Vault.drained_records s.store.vault s.world b)
    rw [hafter]
    exact ⟨fun h _ => h, fun h => h hprocessed⟩
  | @trapped b htrapped =>
    refine iff_of_true hb ?_
    rintro ⟨t, h⟩
    rw [htrapped] at h
    cases h

/-- Every step of a run finds what it must exactly when every active loan is
backed in every state of the run. -/
theorem backed_throughout {world : World} {bank : Ledger} {h : List (State × BackingMove)} {s : State}
    (hr : Run BackingStep (genesis world bank) h s) :
    Along BackingMove.keepsBacked h ↔ Backed s.store ∧ ∀ e ∈ h, Backed e.1.store := by
  have hbook : ∀ {h s}, Run BackingStep (genesis world bank) h s → s.store.book.InOrder s.world.now := fun hr =>
    hr.always (fun s => s.store.book.InOrder s.world.now) (LoanBook.inOrder_empty _) fun _ _ _ hi hst =>
      backingStep_book hst hi
  induction hr with
  | nil =>
    refine iff_of_true (List.forall_mem_nil _) ⟨?_, List.forall_mem_nil _⟩
    intro b hactive
    cases hactive
  | @snoc h s m s' hr hst ih =>
    have hcons : Along BackingMove.keepsBacked ((s, m) :: h) ↔ m.keepsBacked s ∧ Along BackingMove.keepsBacked h :=
      List.forall_mem_cons
    rw [hcons, List.forall_mem_cons]
    constructor
    · rintro ⟨hm, hrest⟩
      obtain ⟨hb, hbefore⟩ := ih.1 hrest
      exact ⟨(backingStep_backed hst (hbook hr) hb).2 hm, hb, hbefore⟩
    · rintro ⟨hb', hb, hbefore⟩
      exact ⟨(backingStep_backed hst (hbook hr) hb).1 hb', ih.2 ⟨hb, hbefore⟩⟩

/-- A run of the contract is one in which no queue is processed by itself. -/
theorem backingRun {s₀ : State} {h : List (State × Move)} (hr : Run Step s₀ h s) :
    Run BackingStep s₀ (h.map fun e => (e.1, .act e.2)) s := by
  induction hr with
  | nil => exact .nil
  | snoc _ hst ih => exact ih.snoc (.act hst)

theorem backed_throughout_pool : Backed (start.play poolLoan).store := by
  have hrun : Run BackingStep start ((start.trace [] poolLoan).map fun e => (e.1, .act e.2)) (start.play poolLoan) :=
    backingRun (run_play .nil poolLoan)
  have hmove : ∀ e ∈ start.trace [] poolLoan, WhenDone (fun s op => op.keepsBacked s) e.1 e.2 := by
    refine List.forall_mem_cons.2 ⟨fun _ => ?_, List.forall_mem_cons.2 ⟨fun _ => ?_, List.forall_mem_nil _⟩⟩
    · intro e he _
      rw [List.mem_singleton.1 he]
      decide
    · intro e he
      cases he
  refine ((backed_throughout hrun).1 fun e he => ?_).1
  obtain ⟨e, hmem, rfl⟩ := List.mem_map.1 he
  exact hmove e hmem

/-- The voucher behind a pool loan withdraws. -/
def withdrawnLoan : List Act := poolLoan ++ [.call [2] (.withdrawVouch 2 10)]

/-- Its loan is active, and nothing is behind it. -/
theorem withdrawn_loan_unbacked : Reachable (start.play withdrawnLoan) ∧ ¬ Backed (start.play withdrawnLoan).store := by
  have hactive : (start.play withdrawnLoan).store.book.hasActiveLoan 10 = true := by decide +kernel
  have hempty : (start.play withdrawnLoan).store.vault.vouching.vouches 10 = some [] := by decide +kernel
  refine ⟨Reachable.script .., fun h => ?_⟩
  obtain ⟨v, vs, hvouches⟩ := h 10 hactive
  rw [hempty] at hvouches
  cases hvouches

end QuorumCredit
