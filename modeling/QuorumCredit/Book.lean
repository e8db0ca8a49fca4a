import QuorumCredit.Effects
/-!
# The shape of the loan book

What no entry point checks because their own writes keep it so: a loan is stored
under its own id, ids are taken from the counter, and the two pointers of a
borrower lead to loans of that borrower. It holds in every state the contract
can be in.
-/

open Host Function

namespace QuorumCredit

theorem Fresh.congr {k k' : LoanBook} {n : Nat} {borrower : Address} {loan : LoanRecord} (h : Fresh k n borrower loan)
    (hc : k'.loanCounter = k.loanCounter) : Fresh k' n borrower loan :=
  ⟨by rw [hc, h.id], h.borrower, h.amount, h.status, h.unpaid, h.interestFree, h.flags⟩

/-- An overdue loan's record after a look at it. -/
def markRecord (now : Nat) (loan : LoanRecord) : LoanRecord :=
  if isLoanDefaulted now loan = true then { loan with status := .defaulted } else loan

namespace LoanBook

/-! ## Marking -/

theorem markDefault_cases (now : Nat) (k : LoanBook) (id : Nat) :
    k.markDefault now id = k ∨ ∃ loan, k.loan id = some loan ∧ isLoanDefaulted now loan = true ∧
      k.markDefault now id = k.markLoan id loan := by
  unfold markDefault
  split
  case h_1 loan hl =>
    by_cases hd : isLoanDefaulted now loan = true
    · exact .inr ⟨loan, hl, hd, if_pos hd⟩
    · exact .inl (if_neg hd)
  case h_2 => exact .inl rfl

variable {k : LoanBook} {b borrower : Address} {loan : LoanRecord}

/-- What survives marking one loan survives marking many. -/
theorem markAll_keeps {I : LoanBook → Prop} {now : Nat} (h : ∀ k id, I k → I (k.markDefault now id)) (ids : List Nat)
    (hk : I k) : I (k.markAll now ids) := by
  induction ids generalizing k with
  | nil => exact hk
  | cons id ids ih => exact ih (h k id hk)

/-- Marking leaves alone what reads neither the loans nor the default counts. -/
theorem markAll_frame {γ : Type} (f : LoanBook → γ)
    (hf : ∀ (k : LoanBook) loan count total,
      f { k with loan, defaultCount := count, totalDefaultCount := total } = f k)
    (now : Nat) (k : LoanBook) (ids : List Nat) : f (k.markAll now ids) = f k := by
  refine markAll_keeps (I := fun k' => f k' = f k) (fun k' id hk' => ?_) ids rfl
  rcases markDefault_cases now k' id with h | ⟨loan, -, -, h⟩
  · rw [h, hk']
  · rw [h, ← hk']
    exact hf k' _ _ _

theorem markRecord_idem (now : Nat) (loan : LoanRecord) :
    markRecord now (markRecord now loan) = markRecord now loan := by
  by_cases h : isLoanDefaulted now loan = true
  · have hm : markRecord now loan = { loan with status := .defaulted } := if_pos h
    rw [hm]
    rfl
  · have hm : markRecord now loan = loan := if_neg h
    rw [hm, hm]

theorem markDefault_loan (now : Nat) (k : LoanBook) (id i : Nat) :
    (k.markDefault now id).loan i = if i = id then (k.loan i).map (markRecord now) else k.loan i := by
  by_cases hi : i = id
  · subst hi
    rw [if_pos rfl]
    unfold markDefault
    cases hl : k.loan i with
    | none => simpa using hl
    | some loan =>
      by_cases hd : isLoanDefaulted now loan = true
      · simp [hd, markLoan, markRecord]
      · simp [hd, hl, markRecord]
  · rw [if_neg hi]
    rcases markDefault_cases now k id with h | ⟨loan, -, -, h⟩
    · rw [h]
    · rw [h]
      exact update_of_ne hi ..

theorem markAll_loan (now : Nat) (k : LoanBook) (ids : List Nat) (i : Nat) :
    (k.markAll now ids).loan i = if i ∈ ids then (k.loan i).map (markRecord now) else k.loan i := by
  induction ids generalizing k with
  | nil => rfl
  | cons id ids ih =>
    change ((k.markDefault now id).markAll now ids).loan i = _
    rw [ih, markDefault_loan]
    by_cases hi : i = id
    · subst hi
      by_cases hmem : i ∈ ids
      · cases hl : k.loan i <;> simp [hmem, markRecord_idem]
      · simp [hmem]
    · simp [hi]

theorem markRecord_id (now : Nat) (loan : LoanRecord) : (markRecord now loan).id = loan.id := by
  unfold markRecord
  split <;> rfl

theorem markAll_activeLoan (now : Nat) (k : LoanBook) (ids : List Nat) :
    (k.markAll now ids).activeLoan = k.activeLoan :=
  markAll_frame (·.activeLoan) (fun _ _ _ _ => rfl) now k ids

theorem markAll_defaultCount (now : Nat) (k : LoanBook) (ids : List Nat) (b : Address) :
    k.defaultCount b ≤ (k.markAll now ids).defaultCount b := by
  refine markAll_keeps (I := fun k' => k.defaultCount b ≤ k'.defaultCount b) (fun k' id hk' => ?_) ids le_rfl
  rcases markDefault_cases now k' id with h | ⟨loan, -, -, h⟩
  · rwa [h]
  · rw [h]
    refine hk'.trans ?_
    change _ ≤ update k'.defaultCount loan.borrower (k'.defaultCount loan.borrower + 1) b
    by_cases hb : b = loan.borrower
    · rw [hb, update_self]
      omega
    · rw [update_of_ne hb]

/-! ## Storing and issuing -/

theorem setLoan_cases {id i : Nat} {new l : LoanRecord} (h : (k.setLoan id new).loan i = some l) :
    i = id ∧ l = new ∨ i ≠ id ∧ k.loan i = some l := by
  by_cases hi : i = id
  · rw [hi, setLoan_loan, update_self] at h
    cases h
    exact .inl ⟨hi, rfl⟩
  · rw [setLoan_loan, update_of_ne hi] at h
    exact .inr ⟨hi, h⟩

theorem setActiveLoan_cases {o : Option Nat} {i : Nat} (h : (k.setActiveLoan borrower o).activeLoan b = some i) :
    b = borrower ∧ o = some i ∨ b ≠ borrower ∧ k.activeLoan b = some i := by
  by_cases hb : b = borrower
  · rw [hb, setActiveLoan_activeLoan, update_self] at h
    exact .inl ⟨hb, h⟩
  · rw [setActiveLoan_activeLoan, update_of_ne hb] at h
    exact .inr ⟨hb, h⟩

theorem setLatestLoan_cases {id i : Nat} (h : (k.setLatestLoan borrower id).latestLoan b = some i) :
    b = borrower ∧ id = i ∨ b ≠ borrower ∧ k.latestLoan b = some i := by
  by_cases hb : b = borrower
  · rw [hb, setLatestLoan_latestLoan, update_self] at h
    exact .inl ⟨hb, Option.some.inj h⟩
  · rw [setLatestLoan_latestLoan, update_of_ne hb] at h
    exact .inr ⟨hb, h⟩

@[simp] theorem issue_loan (k : LoanBook) (loan : LoanRecord) :
    (k.issue loan).loan = update k.loan loan.id (some loan) := rfl

@[simp] theorem issue_activeLoan (k : LoanBook) (loan : LoanRecord) :
    (k.issue loan).activeLoan = update k.activeLoan loan.borrower (some loan.id) := rfl

/-- Opening a loan issues it and enters it in the borrower's list. -/
theorem openLoan_eq (k : LoanBook) (loan : LoanRecord) :
    ∃ ids, k.openLoan loan = { k.issue loan with borrowerLoanIds := ids } := by
  unfold openLoan recordBorrowerLoanId
  split
  · exact ⟨_, rfl⟩
  · exact ⟨_, rfl⟩

/-! ## Keys and pointers -/

structure Keyed (k : LoanBook) : Prop where
  stored : ∀ {id loan}, k.loan id = some loan → loan.id = id ∧ id ≤ k.loanCounter
  status : ∀ {id loan}, k.loan id = some loan → loan.status ≠ .none
  active : ∀ {b id}, k.activeLoan b = some id → ∃ loan, k.loan id = some loan ∧ loan.borrower = b
  latest : ∀ {b id}, k.latestLoan b = some id → ∃ loan, k.loan id = some loan ∧ loan.borrower = b

theorem keyed_empty : empty.Keyed := by
  constructor <;> intro _ _ h <;> cases h

/-- The counters do not matter. -/
theorem Keyed.congr {k' : LoanBook} (hk : k.Keyed) (hl : k'.loan = k.loan) (ha : k'.activeLoan = k.activeLoan)
    (ht : k'.latestLoan = k.latestLoan) (hc : k.loanCounter ≤ k'.loanCounter) : k'.Keyed := by
  refine ⟨fun h => ?_, fun h => hk.status (hl ▸ h), fun h => ?_, fun h => ?_⟩
  · rw [hl] at h
    exact ⟨(hk.stored h).1, (hk.stored h).2.trans hc⟩
  · rw [ha] at h
    rw [hl]
    exact hk.active h
  · rw [ht] at h
    rw [hl]
    exact hk.latest h

/-- Storing a loan anew, under the same id and for the same borrower. -/
theorem Keyed.setLoan (hk : k.Keyed) {id : Nat} {old new : LoanRecord} (ho : k.loan id = some old)
    (hid : new.id = old.id) (hb : new.borrower = old.borrower) (hs : new.status ≠ .none) :
    (k.setLoan id new).Keyed := by
  have hold : ∀ {b i}, (∃ loan, k.loan i = some loan ∧ loan.borrower = b) →
      ∃ loan, (k.setLoan id new).loan i = some loan ∧ loan.borrower = b := by
    rintro b i ⟨loan, hl, rfl⟩
    by_cases hi : i = id
    · subst hi
      rw [ho] at hl
      cases hl
      exact ⟨new, by simp, hb⟩
    · exact ⟨loan, by simp [hi, hl], rfl⟩
  refine ⟨fun {i loan} h => ?_, fun {i loan} h => ?_, fun h => hold (hk.active h), fun h => hold (hk.latest h)⟩
  · rcases setLoan_cases h with ⟨rfl, rfl⟩ | ⟨-, h⟩
    · exact ⟨hid.trans (hk.stored ho).1, (hk.stored ho).2⟩
    · exact hk.stored h
  · rcases setLoan_cases h with ⟨-, rfl⟩ | ⟨-, h⟩
    · exact hs
    · exact hk.status h

theorem Keyed.release (hk : k.Keyed) (borrower : Address) : (k.setActiveLoan borrower none).Keyed := by
  refine ⟨hk.stored, hk.status, fun {b id} h => ?_, hk.latest⟩
  rcases setActiveLoan_cases h with ⟨-, h⟩ | ⟨-, h⟩
  · cases h
  · exact hk.active h

theorem Keyed.pointActive (hk : k.Keyed) {id : Nat} (hl : k.loan id = some loan) (hb : loan.borrower = borrower) :
    (k.setActiveLoan borrower (some id)).Keyed := by
  refine ⟨hk.stored, hk.status, fun {b i} h => ?_, hk.latest⟩
  rcases setActiveLoan_cases h with ⟨rfl, hi⟩ | ⟨-, h⟩
  · cases hi
    exact ⟨loan, hl, hb⟩
  · exact hk.active h

theorem Keyed.pointLatest (hk : k.Keyed) {id : Nat} (hl : k.loan id = some loan) (hb : loan.borrower = borrower) :
    (k.setLatestLoan borrower id).Keyed := by
  refine ⟨hk.stored, hk.status, hk.active, fun {b i} h => ?_⟩
  rcases setLatestLoan_cases h with ⟨rfl, rfl⟩ | ⟨-, h⟩
  · exact ⟨loan, hl, hb⟩
  · exact hk.latest h

theorem Keyed.mark (hk : k.Keyed) (now id : Nat) : (k.markDefault now id).Keyed := by
  rcases markDefault_cases now k id with h | ⟨loan, hl, -, h⟩
  · rwa [h]
  · rw [h]
    have hset : (k.setLoan id { loan with status := .defaulted }).Keyed := hk.setLoan hl rfl rfl nofun
    exact hset.congr rfl rfl rfl le_rfl

theorem Keyed.markAll (hk : k.Keyed) (now : Nat) (ids : List Nat) : (k.markAll now ids).Keyed :=
  markAll_keeps (fun _ id h => h.mark now id) ids hk

/-- A taken id is no loan yet. -/
theorem Keyed.unused (hk : k.Keyed) {id : Nat} (h : k.loanCounter < id) : k.loan id = none := by
  cases hl : k.loan id with
  | none => rfl
  | some loan =>
    have := (hk.stored hl).2
    omega

/-- Storing a loan under an id just taken. -/
theorem Keyed.addLoan (hk : k.Keyed) {n : Nat} (hf : Fresh k n borrower loan) :
    ((k.takeIds (n + 1)).setLoan loan.id loan).Keyed := by
  have hid := hf.id
  have hold : ∀ {b i}, (∃ l, k.loan i = some l ∧ l.borrower = b) →
      ∃ l, ((k.takeIds (n + 1)).setLoan loan.id loan).loan i = some l ∧ l.borrower = b := by
    rintro b i ⟨l, hl, hb⟩
    have hi : i ≠ loan.id := by
      rintro rfl
      rw [hk.unused (by omega)] at hl
      cases hl
    exact ⟨l, by simp [hi, hl], hb⟩
  refine ⟨fun {i l} h => ?_, fun {i l} h => ?_, fun h => hold (hk.active h), fun h => hold (hk.latest h)⟩
  · rw [setLoan_loanCounter, takeIds_loanCounter]
    rcases setLoan_cases h with ⟨rfl, rfl⟩ | ⟨-, h⟩
    · omega
    · have := hk.stored h
      omega
  · rcases setLoan_cases h with ⟨-, rfl⟩ | ⟨-, h⟩
    · simp [hf.status]
    · exact hk.status h

theorem Keyed.issue (hk : k.Keyed) {n : Nat} (hf : Fresh k n borrower loan) :
    ((k.takeIds (n + 1)).issue loan).Keyed := by
  have hnew : ((k.takeIds (n + 1)).setLoan loan.id loan).loan loan.id = some loan := by simp
  exact ((hk.addLoan hf).pointActive hnew rfl).pointLatest hnew rfl

/-! ## What the pointers lead to -/

theorem Keyed.active_record (hk : k.Keyed) (h : k.getActiveLoanRecord b = some loan) :
    k.activeLoan b = some loan.id ∧ k.loan loan.id = some loan ∧ loan.borrower = b := by
  obtain ⟨id, hp, hl⟩ := Option.bind_eq_some_iff.1 h
  have hid : loan.id = id := (hk.stored hl).1
  obtain ⟨loan', hl', hb⟩ := hk.active hp
  rw [hl] at hl'
  cases hl'
  exact ⟨by rw [hid, hp], by rw [hid, hl], hb⟩

theorem Keyed.no_active_record (hk : k.Keyed) (h : k.getActiveLoanRecord b = none) : k.activeLoan b = none := by
  cases hp : k.activeLoan b with
  | none => rfl
  | some id =>
    obtain ⟨loan, hl, -⟩ := hk.active hp
    simp [getActiveLoanRecord, hp, hl] at h

theorem Keyed.latest_record (hk : k.Keyed) (h : k.getLatestLoanRecord b = some loan) :
    k.loan loan.id = some loan ∧ loan.borrower = b := by
  obtain ⟨id, hp, hl⟩ := Option.bind_eq_some_iff.1 h
  have hid : loan.id = id := (hk.stored hl).1
  obtain ⟨loan', hl', hb⟩ := hk.latest hp
  rw [hl] at hl'
  cases hl'
  exact ⟨by rw [hid, hl], hb⟩

/-- The loan to repay is the active one; without one, it has defaulted. -/
theorem Keyed.loan_to_repay (hk : k.Keyed) (h : k.loanToRepay b = some loan) :
    k.loan loan.id = some loan ∧ loan.borrower = b ∧
      (k.activeLoan b = some loan.id ∨ k.activeLoan b = none ∧ loan.status = .defaulted) := by
  unfold loanToRepay at h
  split at h
  case h_1 l ha =>
    cases h
    obtain ⟨hp, hl, hb⟩ := hk.active_record ha
    exact ⟨hl, hb, .inl hp⟩
  case h_2 ha =>
    split at h
    case h_1 l ht =>
      split at h
      case isTrue hd =>
        cases h
        obtain ⟨hl, hb⟩ := hk.latest_record ht
        exact ⟨hl, hb, .inr ⟨hk.no_active_record ha, hd⟩⟩
      case isFalse => cases h
    case h_2 => cases h

theorem hasActiveLoan_iff :
    k.hasActiveLoan b = true ↔ ∃ loan, k.getActiveLoanRecord b = some loan ∧ loan.status = .active := by
  unfold hasActiveLoan
  cases k.getActiveLoanRecord b <;> simp

/-- The record the pointer leads to after marking. -/
theorem Keyed.active_markAll (hk : k.Keyed) (now : Nat) (ids : List Nat) (b : Address) :
    (k.markAll now ids).getActiveLoanRecord b =
      (k.getActiveLoanRecord b).map fun loan => if loan.id ∈ ids then markRecord now loan else loan := by
  unfold getActiveLoanRecord
  rw [markAll_activeLoan]
  cases hid : k.activeLoan b with
  | none => rfl
  | some id =>
    obtain ⟨loan, hl, -⟩ := hk.active hid
    simp only [Option.bind_some, markAll_loan, hl, Option.map_some, (hk.stored hl).1]
    split <;> rfl

/-! ## How the active loan changes -/

theorem setActiveLoan_none_pointer (k : LoanBook) (borrower b : Address) :
    (k.setActiveLoan borrower none).activeLoan b = k.activeLoan b ∨
      (k.setActiveLoan borrower none).activeLoan b = none := by
  by_cases hb : b = borrower
  · subst hb
    exact .inr (update_self ..)
  · exact .inl (update_of_ne hb ..)

theorem pool_pointer {k' : LoanBook} {token : Address} {pool : List (Address × Int)} (hp : PoolEffect token k pool k')
    (hb : ∀ e ∈ pool, e.1 ≠ b) : k'.activeLoan b = k.activeLoan b := by
  induction hp with
  | nil => rfl
  | cons hf _ _ _ ih =>
    rw [List.forall_mem_cons] at hb
    rw [ih hb.2, issue_activeLoan, update_of_ne (hf.borrower ▸ hb.1.symm), takeIds_activeLoan]

/-- Without a loan issued to it, a borrower keeps its active loan or loses it. -/
theorem pointer_effect {k' : LoanBook} {w : World} {op : Op} (he : Effect w k op k') (hb : b ∉ op.issuesTo) :
    k'.activeLoan b = k.activeLoan b ∨ k'.activeLoan b = none := by
  cases he with
  | looked _ => exact .inl (congrFun (markAll_frame (·.activeLoan) (fun _ _ _ _ => rfl) w.now k _) b)
  | @requested borrower amount threshold purpose token loan _ hf _ _ =>
    have hne : b ≠ loan.borrower := by
      rw [hf.borrower]
      exact fun h => hb (h ▸ List.mem_singleton_self _)
    obtain ⟨ids, hopen⟩ := openLoan_eq ((k.markAll w.now (k.borrowerLoanIds borrower)).takeIds 2) loan
    rw [hopen]
    refine .inl ((update_of_ne hne ..).trans ?_)
    exact congrFun (markAll_frame (·.activeLoan) (fun _ _ _ _ => rfl) w.now k _) b
  | paid _ _ _ _ _ | recovered _ _ _ _ _ _ | paidPartial _ _ _ _ _ | autoSlashed _ _ => exact .inl rfl
  | closed _ _ _ _ _ _ => exact setActiveLoan_none_pointer ((k.addRepayment _)) _ b
  | @refinanced borrower amount threshold token old new loan _ _ _ _ _ hf _ _ =>
    have hne : b ≠ borrower := fun h => hb (h ▸ List.mem_singleton_self _)
    exact .inl ((update_of_ne (hf.borrower ▸ hne) ..).trans (update_of_ne hne ..))
  | pooled _ _ hp =>
    refine .inl (pool_pointer hp ?_)
    rintro e he rfl
    exact hb (List.of_mem_zip he).1
  | slashed _ _ | claimed _ _ _ | executedVote _ _ | executedPending _ _ => exact setActiveLoan_none_pointer k _ b

/-! ## Every reachable book is keyed -/

theorem Keyed.store (hk : k.Keyed) {old new : LoanRecord} (ho : k.loan old.id = some old) (hs : SameLoan old new)
    (hst : new.status = old.status ∨ new.status = .repaid) : (k.setLoan new.id new).Keyed := by
  refine hk.setLoan (hs.id ▸ ho) hs.id hs.borrower ?_
  rcases hst with h | h
  · rw [h]
    exact hk.status ho
  · rw [h]
    nofun

theorem Keyed.pool {k' : LoanBook} {token : Address} {pool : List (Address × Int)} (hk : k.Keyed)
    (hp : PoolEffect token k pool k') : k'.Keyed := by
  induction hp with
  | nil => exact hk
  | cons hf _ _ _ ih => exact ih (hk.issue hf)

/-- A loan settled under a changed record, its borrower without an active loan. -/
theorem Keyed.settle (hk : k.Keyed) {new : LoanRecord} (h : k.getActiveLoanRecord b = some loan)
    (hid : new.id = loan.id) (hb : new.borrower = loan.borrower) (hs : new.status ≠ .none) :
    ((k.setLoan loan.id new).setActiveLoan b none).Keyed :=
  (hk.setLoan (hk.active_record h).2.1 hid hb hs).release b

theorem Keyed.settleSlashed (hk : k.Keyed) (h : k.getActiveLoanRecord b = some loan) :
    (k.settleSlashed b loan).Keyed := by
  have hst := hk.status (hk.active_record h).2.1
  have hset : ((k.setLoan loan.id { loan with defaulted := true }).setActiveLoan b none).Keyed :=
    hk.settle h rfl rfl hst
  exact hset.congr rfl rfl rfl le_rfl

theorem Keyed.settleExpired (hk : k.Keyed) (h : k.getActiveLoanRecord b = some loan) :
    (k.settleExpired b loan).Keyed := by
  have hst := hk.status (hk.active_record h).2.1
  have hset : ((k.setLoan loan.id { loan with defaulted := true }).setActiveLoan b none).Keyed :=
    hk.settle h rfl rfl hst
  exact hset.congr rfl rfl rfl le_rfl

theorem Keyed.settleDefaulted (hk : k.Keyed) (h : k.getActiveLoanRecord b = some loan) :
    (k.settleDefaulted b loan).Keyed := by
  have hset : ((k.setLoan loan.id { loan with status := .defaulted }).setActiveLoan b none).Keyed :=
    hk.settle h rfl rfl nofun
  have hstored : ((k.setLoan loan.id { loan with status := .defaulted }).setActiveLoan b none).loan loan.id =
      some { loan with status := .defaulted } := by simp
  exact (hset.pointLatest hstored (hk.active_record h).2.2).congr rfl rfl rfl le_rfl

theorem Keyed.openLoan (hk : k.Keyed) {n : Nat} (hf : Fresh k n borrower loan) :
    ((k.takeIds (n + 1)).openLoan loan).Keyed := by
  obtain ⟨ids, h⟩ := openLoan_eq (k.takeIds (n + 1)) loan
  rw [h]
  exact (hk.issue hf).congr rfl rfl rfl le_rfl

theorem Keyed.effect {k' : LoanBook} {w : World} {op : Op} (hk : k.Keyed) (he : Effect w k op k') : k'.Keyed := by
  cases he with
  | looked _ => exact hk.markAll w.now _
  | requested _ hf _ _ => exact ((hk.markAll w.now _).openLoan hf).congr rfl rfl rfl le_rfl
  | paid ho hs hst _ _ => exact hk.store (hk.loan_to_repay ho).1 hs (.inl hst)
  | recovered ho _ hs hst _ _ => exact hk.store (hk.loan_to_repay ho).1 hs (.inr hst)
  | closed ho _ hs hst _ _ =>
    exact ((hk.store (hk.loan_to_repay ho).1 hs (.inr hst)).release _).congr rfl rfl rfl le_rfl
  | paidPartial ho hs hst _ _ => exact hk.store (hk.active_record ho).2.1 hs (.inl hst)
  | refinanced ho hs hst _ _ hf _ _ =>
    exact ((hk.store (hk.active_record ho).2.1 hs (.inr hst)).release _).issue (hf.congr rfl)
  | pooled _ _ hp => exact hk.pool hp
  | slashed ho _ => exact hk.settleSlashed ho
  | autoSlashed _ _ => exact hk
  | claimed ho _ _ => exact hk.settleExpired ho
  | executedVote ho _ | executedPending ho _ => exact hk.settleDefaulted ho

end LoanBook

/-- What holds of the empty book and survives every call under `p` holds of
every book in a history whose calls meet `p`. -/
theorem History.bookWhen {p : State → Op → Prop} {I : LoanBook → Prop} (h0 : I .empty)
    (hs : ∀ {h s k'} {c : Call}, History h s → I s.store.book → Effect s.world s.store.book c.op k' → p s c.op → I k')
    {h s} (hr : History h s) (hok : Along (WhenDone p) h) : I s.store.book := by
  refine History.inv (I := fun _ s => I s.store.book) (fun _ _ => h0) (fun hr hi hd hp => ?_) (fun hi _ => hi)
    (fun hi _ _ => hi) hr hok
  exact hs hr hi (effect_of hd) hp

/-- Every step meets no condition at all. -/
theorem along_true (h : List (State × Move)) : Along (WhenDone fun _ _ => True) h := by
  rintro ⟨s, m⟩ -
  cases m with
  | call c => exact fun _ => trivial
  | elsewhere => trivial

theorem History.keyed {h s} (hr : History h s) : s.store.book.Keyed :=
  hr.bookWhen LoanBook.keyed_empty (fun _ hk he _ => hk.effect he) (along_true h)

/-! ## What has happened -/

/-- Some call of the history went through and was one of those `p` describes. -/
def Happened (p : State → Op → Prop) (h : List (State × Move)) : Prop :=
  ∃ s c, (s, Move.call c) ∈ h ∧ (∃ t, exec c s = .ok t) ∧ p s c.op

theorem happened_call {p : State → Op → Prop} {h : List (State × Move)} {s : State} {c : Call} {t : Store}
    (hd : exec c s = .ok t) : Happened p ((s, .call c) :: h) ↔ Happened p h ∨ p s c.op := by
  constructor
  · rintro ⟨s', c', hmem, hgoes, hp⟩
    rcases List.mem_cons.1 hmem with heq | hmem
    · cases heq
      exact .inr hp
    · exact .inl ⟨s', c', hmem, hgoes, hp⟩
  · rintro (⟨s', c', hmem, hgoes, hp⟩ | hp)
    · exact ⟨s', c', List.mem_cons_of_mem _ hmem, hgoes, hp⟩
    · exact ⟨s, c, List.mem_cons_self, ⟨t, hd⟩, hp⟩

theorem happened_other {p : State → Op → Prop} {h : List (State × Move)} {s : State} {m : Move}
    (hm : ∀ c t, m = .call c → exec c s ≠ .ok t) : Happened p ((s, m) :: h) ↔ Happened p h := by
  constructor
  · rintro ⟨s', c', hmem, ⟨t, ht⟩, hp⟩
    rcases List.mem_cons.1 hmem with heq | hmem
    · cases heq
      exact absurd ht (hm c' t rfl)
    · exact ⟨s', c', hmem, ⟨t, ht⟩, hp⟩
  · rintro ⟨s', c', hmem, hgoes, hp⟩
    exact ⟨s', c', List.mem_cons_of_mem _ hmem, hgoes, hp⟩

end QuorumCredit
