import QuorumCredit.Book
/-!
# The sweep for defaults

`check_all_defaults_for_borrower` walks the ids recorded for a borrower and marks
the loans that are overdue. It sees the loans that were entered in that list.
`request_loan` enters them; `refinance_loan` and `create_loan_pool` do not, and
nothing enters a loan later.
-/

open Host Function

namespace QuorumCredit

namespace LoanBook

/-- Whose loan is stored under the id. -/
def owner (k : LoanBook) (id : Nat) : Option Address := (k.loan id).map (·.borrower)

/-- Every loan is in its borrower's list. -/
def AllListed (k : LoanBook) : Prop := ∀ id b, k.owner id = some b → id ∈ k.borrowerLoanIds b

/-- The lists hold ids that were given out. -/
def ListsKnown (k : LoanBook) : Prop := ∀ b, ∀ id ∈ k.borrowerLoanIds b, id ≤ k.loanCounter

/-- No active loan of the borrower is past its deadline. -/
def NoneOverdue (k : LoanBook) (b : Address) (now : Nat) : Prop :=
  ∀ id loan, k.loan id = some loan → loan.borrower = b → loan.status = .active → ¬ loan.deadline < now

/-- Every active loan of the borrower past its deadline is in the list, its principal not yet repaid. -/
def SweepReaches (k : LoanBook) (b : Address) (now : Nat) : Prop :=
  ∀ id loan, k.loan id = some loan → loan.borrower = b → loan.status = .active → loan.deadline < now →
    id ∈ k.borrowerLoanIds b ∧ loan.amountRepaid < loan.amount

end LoanBook

/-- The calls that issue loans without entering them in the borrower's list. -/
def Op.issuesUnlisted : Op → Bool
  | .refinanceLoan .. => true
  | .createLoanPool _ borrowers _ => borrowers ≠ []
  | _ => false

/-! ## What a call does to the lists -/

/-- From `k` to `k'` no loan changes hands, and at most one is issued, which is listed. -/
inductive KeepsLists (k k' : LoanBook) : Prop
  | same : k'.owner = k.owner → k'.borrowerLoanIds = k.borrowerLoanIds → k.loanCounter ≤ k'.loanCounter →
      KeepsLists k k'
  | listed {id b} : k.loanCounter < id → id ≤ k'.loanCounter → k'.owner = update k.owner id (some b) →
      k'.borrowerLoanIds = update k.borrowerLoanIds b (k.borrowerLoanIds b ++ [id]) → KeepsLists k k'

/-- From `k` to `k'` some loan is issued and not listed. -/
structure LeavesOut (k k' : LoanBook) : Prop where
  known : ∀ id ≤ k.loanCounter, k'.owner id = k.owner id
  issued : ∃ id b, k.loanCounter < id ∧ k'.owner id = some b
  lists : k'.borrowerLoanIds = k.borrowerLoanIds
  counter : k.loanCounter ≤ k'.loanCounter

namespace LoanBook

section

variable {k k' : LoanBook}

theorem owner_setLoan {id : Nat} {old new : LoanRecord} (ho : k.loan id = some old) (hb : new.borrower = old.borrower) :
    (k.setLoan id new).owner = k.owner := by
  funext i
  unfold owner
  rw [setLoan_loan]
  by_cases hi : i = id
  · rw [hi, update_self, ho, Option.map_some, Option.map_some, hb]
  · rw [update_of_ne hi]

theorem owner_issue (k : LoanBook) (loan : LoanRecord) :
    (k.issue loan).owner = update k.owner loan.id (some loan.borrower) := by
  funext i
  unfold owner
  rw [issue_loan]
  by_cases hi : i = loan.id
  · rw [hi, update_self, update_self, Option.map_some]
  · rw [update_of_ne hi, update_of_ne hi]

theorem owner_openLoan (k : LoanBook) (loan : LoanRecord) :
    (k.openLoan loan).owner = update k.owner loan.id (some loan.borrower) := by
  obtain ⟨ids, hopen⟩ := openLoan_eq k loan
  rw [hopen]
  exact owner_issue k loan

theorem openLoan_lists {loan : LoanRecord} (hnew : loan.id ∉ k.borrowerLoanIds loan.borrower) :
    (k.openLoan loan).borrowerLoanIds =
      update k.borrowerLoanIds loan.borrower (k.borrowerLoanIds loan.borrower ++ [loan.id]) := by
  have hnew' : loan.id ∉ (k.setLoan loan.id loan).borrowerLoanIds loan.borrower := hnew
  unfold openLoan recordBorrowerLoanId
  rw [if_neg hnew']
  rfl

theorem owner_markAll (now : Nat) (k : LoanBook) (ids : List Nat) : (k.markAll now ids).owner = k.owner := by
  funext i
  unfold owner
  rw [markAll_loan]
  split
  · rw [Option.map_map]
    refine congrArg (fun f => Option.map f (k.loan i)) (funext fun loan => ?_)
    change (markRecord now loan).borrower = loan.borrower
    unfold markRecord
    split
    · rfl
    · rfl
  · rfl

/-- Storing the changed record of a loan that is there leaves the lists. -/
theorem keepsLists_setLoan {id : Nat} {old : LoanRecord} (new : LoanRecord) (ho : k.loan id = some old)
    (hb : new.borrower = old.borrower) (howner : k'.owner = (k.setLoan id new).owner)
    (hlists : k'.borrowerLoanIds = k.borrowerLoanIds) (hcounter : k'.loanCounter = k.loanCounter) : KeepsLists k k' :=
  .same (howner.trans (owner_setLoan ho hb)) hlists hcounter.ge

theorem leavesOut_pool {token : Address} {pool : List (Address × Int)} (hp : PoolEffect token k pool k') :
    (∀ id ≤ k.loanCounter, k'.owner id = k.owner id) ∧ k'.borrowerLoanIds = k.borrowerLoanIds ∧
      k.loanCounter ≤ k'.loanCounter ∧ (pool ≠ [] → ∃ id b, k.loanCounter < id ∧ k'.owner id = some b) := by
  induction hp with
  | nil => exact ⟨fun _ _ => rfl, rfl, le_rfl, fun h => absurd rfl h⟩
  | @cons k borrower amount loan rest k' hf _ _ _ ih =>
    obtain ⟨hknown, hlists, hcounter, -⟩ := ih
    have hid : loan.id = k.loanCounter + 1 := hf.id
    have hissued : ((k.takeIds 1).issue loan).loanCounter = k.loanCounter + 1 := rfl
    rw [hissued] at hknown hcounter
    refine ⟨fun id hle => ?_, hlists, by omega, fun _ => ⟨loan.id, loan.borrower, by omega, ?_⟩⟩
    · rw [hknown id (by omega), owner_issue, update_of_ne (by omega)]
      rfl
    · rw [hknown loan.id (by omega), owner_issue, update_self]

/-- A call leaves out what it issues, or keeps the lists. -/
theorem Keyed.lists_effect (hk : k.Keyed) {w : World} {op : Op} (he : Effect w k op k') (hknown : k.ListsKnown) :
    if op.issuesUnlisted = true then LeavesOut k k' else KeepsLists k k' := by
  cases he with
  | looked hop =>
    have hkeeps : KeepsLists k (k.markAll w.now (op.looksAt w k)) :=
      .same (owner_markAll ..) (markAll_borrowerLoanIds ..) (markAll_frame (·.loanCounter) (fun _ _ _ _ => rfl) ..).ge
    cases op with
    | refinanceLoan | createLoanPool => cases hop
    | _ => exact hkeeps
  | @requested borrower amount threshold purpose token loan _ hf _ _ =>
    have hcounter : (k.markAll w.now (k.borrowerLoanIds borrower)).loanCounter = k.loanCounter :=
      markAll_frame (·.loanCounter) (fun _ _ _ _ => rfl) ..
    have hid : loan.id = k.loanCounter + 2 := by rw [hf.id, hcounter]
    have hnew : loan.id ∉ ((k.markAll w.now (k.borrowerLoanIds borrower)).takeIds 2).borrowerLoanIds loan.borrower := by
      intro hmem
      rw [takeIds_borrowerLoanIds, markAll_borrowerLoanIds] at hmem
      have hle := hknown _ _ hmem
      omega
    have hnext : k.loanCounter < loan.id := by omega
    refine KeepsLists.listed hnext ?_ (?_ : _ = update k.owner loan.id (some loan.borrower)) ?_
    · obtain ⟨ids, hopen⟩ := openLoan_eq ((k.markAll w.now (k.borrowerLoanIds borrower)).takeIds 2) loan
      rw [hopen]
      change loan.id ≤ (k.markAll w.now (k.borrowerLoanIds borrower)).loanCounter + 2
      omega
    · have hmarked : ((k.markAll w.now (k.borrowerLoanIds borrower)).takeIds 2).owner = k.owner := owner_markAll ..
      rw [← hmarked]
      exact owner_openLoan _ loan
    · have hopen := openLoan_lists hnew
      rw [takeIds_borrowerLoanIds, markAll_borrowerLoanIds] at hopen
      exact hopen
  | paid ho hs _ _ _ | recovered ho _ hs _ _ _ | closed ho _ hs _ _ _ =>
    have hstored := hs.id ▸ (hk.loan_to_repay ho).1
    exact keepsLists_setLoan _ hstored hs.borrower rfl rfl rfl
  | paidPartial ho hs _ _ _ =>
    have hstored := hs.id ▸ (hk.active_record ho).2.1
    exact keepsLists_setLoan _ hstored hs.borrower rfl rfl rfl
  | @refinanced borrower amount threshold token old new loan ho hs _ _ _ hf _ _ =>
    have hid : loan.id = k.loanCounter + 1 := hf.id
    have howner : ((((k.setLoan new.id new).setActiveLoan borrower none).takeIds 1).issue loan).owner =
        update k.owner loan.id (some loan.borrower) := by
      rw [owner_issue]
      exact congrArg (update · loan.id (some loan.borrower))
        (owner_setLoan (hs.id ▸ (hk.active_record ho).2.1) hs.borrower)
    refine ⟨fun id hle => ?_, ⟨loan.id, loan.borrower, by omega, ?_⟩, rfl, Nat.le_succ _⟩
    · rw [howner, update_of_ne (by omega)]
    · rw [howner, update_self]
  | @pooled signers borrowers amounts _ hlength _ hp =>
    obtain ⟨hkept, hlists, hcounter, hissued⟩ := leavesOut_pool hp
    cases borrowers with
    | nil =>
      cases hp
      exact .same rfl rfl le_rfl
    | cons b borrowers =>
      cases amounts with
      | nil => cases hlength
      | cons n amounts => exact ⟨hkept, hissued (List.cons_ne_nil _ _), hlists, hcounter⟩
  | autoSlashed _ _ => exact .same rfl rfl le_rfl
  | @slashed signers borrower loan ho _ =>
    exact keepsLists_setLoan { loan with defaulted := true } (hk.active_record ho).2.1 rfl rfl rfl rfl
  | @claimed borrower loan ho _ _ =>
    exact keepsLists_setLoan { loan with defaulted := true } (hk.active_record ho).2.1 rfl rfl rfl rfl
  | @executedVote borrower loan ho _ | @executedPending borrower loan ho _ =>
    exact keepsLists_setLoan { loan with status := .defaulted } (hk.active_record ho).2.1 rfl rfl rfl rfl

end

end LoanBook

/-! ## What that means for the list -/

section

variable {k k' : LoanBook}

theorem KeepsLists.listsKnown (h : KeepsLists k k') (hknown : k.ListsKnown) : k'.ListsKnown := by
  intro b id hmem
  cases h with
  | same _ hlists hcounter =>
    rw [hlists] at hmem
    exact (hknown b id hmem).trans hcounter
  | @listed new owner hnew hcounter _ hlists =>
    rw [hlists] at hmem
    by_cases hb : b = owner
    · subst hb
      rw [update_self, List.mem_append, List.mem_singleton] at hmem
      rcases hmem with hold | rfl
      · have hle := hknown _ _ hold
        omega
      · exact hcounter
    · rw [update_of_ne hb] at hmem
      have hle := hknown _ _ hmem
      omega

theorem LeavesOut.listsKnown (h : LeavesOut k k') (hknown : k.ListsKnown) : k'.ListsKnown := by
  intro b id hmem
  rw [h.lists] at hmem
  exact (hknown b id hmem).trans h.counter

/-- A new entry is a new loan's: nothing that was missing is entered. -/
theorem KeepsLists.allListed_iff (h : KeepsLists k k') (hk : k.Keyed) : k'.AllListed ↔ k.AllListed := by
  cases h with
  | same howner hlists _ => rw [LoanBook.AllListed, LoanBook.AllListed, howner, hlists]
  | @listed new owner hnew _ howner hlists =>
    have hold {id : Nat} {b : Address} (hb : k.owner id = some b) : id ≠ new := by
      obtain ⟨loan, hloan, -⟩ := Option.map_eq_some_iff.1 hb
      have hle := (hk.stored hloan).2
      omega
    constructor
    · intro hall id b hb
      have hmem := hall id b (by rw [howner, update_of_ne (hold hb), hb])
      rw [hlists] at hmem
      by_cases hbo : b = owner
      · subst hbo
        rw [update_self, List.mem_append, List.mem_singleton] at hmem
        exact hmem.resolve_right (hold hb)
      · rwa [update_of_ne hbo] at hmem
    · intro hall id b hb
      rw [hlists]
      by_cases hid : id = new
      · subst hid
        rw [howner, update_self] at hb
        cases hb
        rw [update_self]
        exact List.mem_append_right _ (List.mem_singleton_self _)
      · rw [howner, update_of_ne hid] at hb
        by_cases hbo : b = owner
        · subst hbo
          rw [update_self]
          exact List.mem_append_left _ (hall id b hb)
        · rw [update_of_ne hbo]
          exact hall id b hb

/-- A loan left out is not in the list. -/
theorem LeavesOut.not_allListed (h : LeavesOut k k') (hknown : k.ListsKnown) : ¬ k'.AllListed := by
  intro hall
  obtain ⟨id, b, hnew, hb⟩ := h.issued
  have hmem := hall id b hb
  rw [h.lists] at hmem
  have hle := hknown b id hmem
  omega

end

/-! ## The sweep -/

theorem markRecord_active {now : Nat} {loan : LoanRecord} :
    (markRecord now loan).status = .active ↔
      loan.status = .active ∧ ¬ (loan.deadline < now ∧ loan.amountRepaid < loan.amount) := by
  have hoverdue : isLoanDefaulted now loan = true ↔
      loan.status = .active ∧ loan.deadline < now ∧ loan.amountRepaid < loan.amount := by
    simp [isLoanDefaulted]
  unfold markRecord
  split
  case isTrue h =>
    constructor
    · intro hactive
      cases hactive
    · exact fun hactive => absurd (hoverdue.1 h).2 hactive.2
  case isFalse h => exact ⟨fun hactive => ⟨hactive, fun hlate => h (hoverdue.2 ⟨hactive, hlate⟩)⟩, fun hactive =>
    hactive.1⟩

theorem markRecord_terms (now : Nat) (loan : LoanRecord) :
    (markRecord now loan).borrower = loan.borrower ∧ (markRecord now loan).deadline = loan.deadline := by
  unfold markRecord
  split
  · exact ⟨rfl, rfl⟩
  · exact ⟨rfl, rfl⟩

/-- The sweep leaves an overdue loan active exactly if it does not reach it. -/
theorem LoanBook.noneOverdue_markAll (k : LoanBook) (b : Address) (now : Nat) :
    (k.markAll now (k.borrowerLoanIds b)).NoneOverdue b now ↔ k.SweepReaches b now := by
  constructor
  · intro h id loan hloan hb hactive hlate
    by_cases hmem : id ∈ k.borrowerLoanIds b
    · refine ⟨hmem, not_le.1 fun hpaid => ?_⟩
      obtain ⟨hborrower, hdeadline⟩ := markRecord_terms now loan
      have hmarked : (markRecord now loan).status = .active :=
        markRecord_active.2 ⟨hactive, fun hshort => absurd hshort.2 (not_lt.2 hpaid)⟩
      refine h id (markRecord now loan) ?_ (hborrower.trans hb) hmarked (hdeadline ▸ hlate)
      rw [LoanBook.markAll_loan, if_pos hmem, hloan, Option.map_some]
    · refine absurd hlate (h id loan ?_ hb hactive)
      rw [LoanBook.markAll_loan, if_neg hmem, hloan]
  · intro h id marked hmarked hb hactive hlate
    rw [LoanBook.markAll_loan] at hmarked
    split at hmarked
    case isTrue hmem =>
      obtain ⟨loan, hloan, rfl⟩ := Option.map_eq_some_iff.1 hmarked
      obtain ⟨hborrower, hdeadline⟩ := markRecord_terms now loan
      obtain ⟨hrunning, hshort⟩ := markRecord_active.1 hactive
      rw [hdeadline] at hlate
      exact hshort ⟨hlate, (h id loan hloan (hborrower ▸ hb) hrunning hlate).2⟩
    case isFalse hmem => exact hmem (h id marked hmarked hb hactive hlate).1

/-! ## Every run -/

/-- In every run all loans are listed if and only if every loan was issued by a call that
lists it; and the sweep, which always comes to its end, leaves none of the borrower's
overdue loans active if and only if all of them are listed and have principal to repay. -/
theorem default_sweep_sees {h : List (State × Move)} {s : State} (hr : History h s) :
    (s.store.book.AllListed ↔ Along (WhenDone fun _ op => op.issuesUnlisted = false) h) ∧
      ∀ b ctx, ∃ marked k', checkAllDefaultsForBorrower b ctx s.store.book = .ok (marked, k') ∧
        (k'.NoneOverdue b ctx.now ↔ s.store.book.SweepReaches b ctx.now) := by
  refine ⟨?_, fun b ctx => ?_⟩
  · refine (History.inv (p := fun _ _ => True)
      (I := fun h s => (s.store.book.AllListed ↔ Along (WhenDone fun _ op => op.issuesUnlisted = false) h) ∧
        s.store.book.ListsKnown) (fun _ _ => ?_) (fun {h s c t} hr hi hd _ => ?_) (fun {h s c e} hi he => ?_)
      (fun {h s world access bank} hi _ _ => ?_) hr (along_true h)).1
    · refine ⟨⟨fun _ => List.forall_mem_nil _, fun _ => ?_⟩, ?_⟩
      · rintro _ _ ⟨⟩
      · rintro _ _ ⟨⟩
    · obtain ⟨hiff, hknown⟩ := hi
      have hcons : Along (WhenDone fun _ op => op.issuesUnlisted = false) ((s, .call c) :: h) ↔
          c.op.issuesUnlisted = false ∧ Along (WhenDone fun _ op => op.issuesUnlisted = false) h := by
        rw [Along, List.forall_mem_cons]
        exact and_congr_left fun _ => ⟨fun hwhen => hwhen ⟨t, hd⟩, fun hop _ => hop⟩
      have hlists := hr.keyed.lists_effect (effect_of hd) hknown
      rw [hcons]
      cases hop : c.op.issuesUnlisted with
      | true =>
        rw [if_pos hop] at hlists
        refine ⟨⟨fun hall => absurd hall (hlists.not_allListed hknown), ?_⟩, hlists.listsKnown hknown⟩
        rintro ⟨⟨⟩, _⟩
      | false =>
        rw [if_neg (by rw [hop]; exact Bool.false_ne_true)] at hlists
        rw [hlists.allListed_iff hr.keyed, hiff]
        exact ⟨⟨fun hall => ⟨rfl, hall⟩, fun hall => hall.2⟩, hlists.listsKnown hknown⟩
    · rw [Along, List.forall_mem_cons, ← Along, ← hi.1]
      refine ⟨⟨fun hall => ⟨?_, hall⟩, fun hall => hall.2⟩, hi.2⟩
      rintro ⟨t, hd⟩
      rw [he] at hd
      cases hd
    · rw [Along, List.forall_mem_cons, ← Along, ← hi.1]
      exact ⟨⟨fun hall => ⟨trivial, hall⟩, fun hall => hall.2⟩, hi.2⟩
  · obtain ⟨marked, hrun⟩ := checkAllDefaults_run b ctx s.store.book
    exact ⟨marked, _, hrun, LoanBook.noneOverdue_markAll ..⟩

/-- A script without a refinancing or a pool. -/
theorem along_listed {as : List Act} (has : ∀ signers op, Act.call signers op ∈ as → op.issuesUnlisted = false) :
    Along (WhenDone fun _ op => op.issuesUnlisted = false) (start.trace [] as) := by
  refine along_trace _ (List.forall_mem_nil _) fun a ha s => ?_
  cases a with
  | call signers op => exact fun _ => has signers op ha
  | wait secs => trivial

/-- The loan that account 10 has requested is listed, and its default is seen. -/
theorem default_sweep_sees_requested :
    let s := start.play requestedLoan
    (s.store.book.loan 2).isSome = true ∧ s.store.book.AllListed := by
  intro s
  refine ⟨by decide +kernel, (default_sweep_sees (start_history requestedLoan)).1.2 (along_listed ?_)⟩
  intro signers op hmem
  simp only [requestedLoan, List.mem_cons, List.not_mem_nil, or_false, Act.call.injEq] at hmem
  rcases hmem with ⟨-, rfl⟩ | ⟨-, rfl⟩ | ⟨-, rfl⟩
  · rfl
  · rfl
  · rfl

/-- The requested loan, its principal repaid and its yield not, once its deadline has passed. -/
def principalRepaid : List Act := requestedLoan ++ [.call [10] (.repay 10 500000), .wait 2592001]

/-- A pooled loan is not listed; and a listed one stays active past its deadline once its principal is repaid. -/
theorem pooled_loan_unseen :
    (¬ ∀ h s, History h s → s.store.book.AllListed) ∧
      ¬ ∀ h s, History h s → Along (WhenDone fun _ op => op.issuesUnlisted = false) h → ∀ b ctx marked k',
        checkAllDefaultsForBorrower b ctx s.store.book = .ok (marked, k') → k'.NoneOverdue b ctx.now := by
  refine ⟨fun hclaim => ?_, fun hclaim => ?_⟩
  · have hlisted := hclaim _ _ (start_history poolLoan) 1 10 (by decide +kernel)
    have hnone : (start.play poolLoan).store.book.borrowerLoanIds 10 = [] := by decide +kernel
    rw [hnone] at hlisted
    cases hlisted
  · have hlisted : Along (WhenDone fun _ op => op.issuesUnlisted = false) (start.trace [] principalRepaid) := by
      refine along_listed fun signers op hmem => ?_
      simp only [principalRepaid, requestedLoan, List.mem_append, List.mem_cons, List.not_mem_nil, or_false,
        reduceCtorEq, Act.call.injEq] at hmem
      rcases hmem with (⟨-, rfl⟩ | ⟨-, rfl⟩ | ⟨-, rfl⟩) | ⟨-, rfl⟩
      · rfl
      · rfl
      · rfl
      · rfl
    have hswept := hclaim _ _ (start_history principalRepaid) hlisted 10
    have hloan : ((start.play principalRepaid).store.book.loan 2).map
        (fun loan => (loan.borrower, loan.status, loan.deadline, decide (loan.amountRepaid < loan.amount))) =
          some (10, .active, 3592000, false) := by decide +kernel
    generalize start.play principalRepaid = s at hswept hloan
    obtain ⟨loan, hstored, hterms⟩ := Option.map_eq_some_iff.1 hloan
    simp only [Prod.mk.injEq, decide_eq_false_iff_not] at hterms
    obtain ⟨hborrower, hactive, hdeadline, hpaid⟩ := hterms
    obtain ⟨marked, hrun⟩ := checkAllDefaults_run 10 ⟨{ sampleWorld with now := 3592001 }, []⟩ s.store.book
    have hreached := (LoanBook.noneOverdue_markAll _ _ _).1 (hswept _ _ _ hrun) 2 loan hstored hborrower hactive
    rw [hdeadline] at hreached
    exact hpaid (hreached (by decide)).2

end QuorumCredit
