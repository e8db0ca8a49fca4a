import QuorumCredit.Book
/-!
# The life of a loan

A borrower has one active loan, and the pointer leads to it, as long as no call
settles the loan and leaves its status: `slash` and `claim_expired_loan` only
set a flag on the record. And which calls move a loan's status the way the
settlement paths of `loan.rs` and `governance.rs` do.
-/

open Host Function

namespace QuorumCredit

namespace LoanBook

/-! ## One active loan -/

/-- The borrower has at most one loan with status Active, and the pointer leads to it. -/
structure SingleActive (k : LoanBook) (b : Address) : Prop where
  unique : ∀ id id' loan loan', k.loan id = some loan → k.loan id' = some loan' → loan.borrower = b →
    loan'.borrower = b → loan.status = .active → loan'.status = .active → id = id'
  pointed : ∀ id loan, k.loan id = some loan → loan.borrower = b → loan.status = .active →
    k.activeLoan b = some loan.id

/-- Every loan with status Active is its borrower's active loan. -/
def Pointed (k : LoanBook) : Prop :=
  ∀ id loan, k.loan id = some loan → loan.status = .active → k.activeLoan loan.borrower = some id

/-- The borrower has no loan with status Active. -/
def Idle (k : LoanBook) (b : Address) : Prop :=
  ∀ id loan, k.loan id = some loan → loan.borrower = b → loan.status ≠ .active

variable {k : LoanBook}

theorem Pointed.single (hp : k.Pointed) (hk : k.Keyed) (b : Address) : k.SingleActive b := by
  constructor
  · intro id id' loan loan' hl hl' hb hb' hs hs'
    have h := hp id loan hl hs
    have h' := hp id' loan' hl' hs'
    rw [hb] at h
    rw [hb', h] at h'
    exact Option.some.inj h'
  · intro id loan hl hb hs
    rw [(hk.stored hl).1, ← hb]
    exact hp id loan hl hs

theorem Pointed.idle (hp : k.Pointed) {b : Address} (h : k.hasActiveLoan b = false) : k.Idle b := by
  intro id loan hl hb hs
  have hptr := hp id loan hl hs
  have hact : k.hasActiveLoan b = true := by
    refine hasActiveLoan_iff.2 ⟨loan, ?_, hs⟩
    rw [getActiveLoanRecord, ← hb, hptr]
    exact hl
  rw [h] at hact
  cases hact

/-- Once the loan the pointer leads to is no longer Active, the borrower is idle. -/
theorem Pointed.idle_of_setLoan (hp : k.Pointed) {b : Address} {id : Nat} {new : LoanRecord}
    (ha : k.activeLoan b = some id) (hs : new.status ≠ .active) : (k.setLoan id new).Idle b := by
  intro i l h hb hl
  rcases setLoan_cases h with ⟨-, rfl⟩ | ⟨hi, h⟩
  · exact hs hl
  · have hptr := hp i l h hl
    rw [hb, ha] at hptr
    exact hi (Option.some.inj hptr).symm

/-! ### What keeps it -/

theorem Pointed.congr {k' : LoanBook} (hp : k.Pointed) (hl : k'.loan = k.loan) (ha : k'.activeLoan = k.activeLoan) :
    k'.Pointed := by
  intro id loan h hs
  rw [hl] at h
  rw [ha]
  exact hp id loan h hs

/-- A record stored anew may not become Active by it. -/
theorem Pointed.setLoan (hp : k.Pointed) {id : Nat} {old new : LoanRecord} (ho : k.loan id = some old)
    (hb : new.borrower = old.borrower) (hs : new.status = .active → old.status = .active) :
    (k.setLoan id new).Pointed := by
  intro i l h hl
  rw [setLoan_activeLoan]
  rcases setLoan_cases h with ⟨rfl, rfl⟩ | ⟨-, h⟩
  · rw [hb]
    exact hp i old ho (hs hl)
  · exact hp i l h hl

theorem Pointed.release (hp : k.Pointed) {b : Address} (hi : k.Idle b) : (k.setActiveLoan b none).Pointed := by
  intro i l h hl
  have hb : l.borrower ≠ b := fun hb => hi i l h hb hl
  rw [setActiveLoan_activeLoan, update_of_ne hb]
  exact hp i l h hl

/-- Settling the loan the pointer leads to, with a status that is not Active. -/
theorem Pointed.settle (hp : k.Pointed) {b : Address} {id : Nat} {old new : LoanRecord} (ho : k.loan id = some old)
    (ha : k.activeLoan b = some id) (hb : new.borrower = old.borrower) (hs : new.status ≠ .active) :
    ((k.setLoan id new).setActiveLoan b none).Pointed :=
  (hp.setLoan ho hb fun h => absurd h hs).release (hp.idle_of_setLoan ha hs)

theorem Pointed.mark (hp : k.Pointed) (now id : Nat) : (k.markDefault now id).Pointed := by
  rcases markDefault_cases now k id with h | ⟨loan, hl, -, h⟩
  · rwa [h]
  · rw [h]
    have hset : (k.setLoan id { loan with status := .defaulted }).Pointed := hp.setLoan hl rfl nofun
    exact hset.congr rfl rfl

theorem Pointed.markAll (hp : k.Pointed) (now : Nat) (ids : List Nat) : (k.markAll now ids).Pointed :=
  markAll_keeps (fun _ id h => h.mark now id) ids hp

theorem issue_cases {n i : Nat} {loan l : LoanRecord} (h : ((k.takeIds n).issue loan).loan i = some l) :
    i = loan.id ∧ l = loan ∨ i ≠ loan.id ∧ k.loan i = some l :=
  setLoan_cases h

theorem Pointed.issue (hp : k.Pointed) (n : Nat) {loan : LoanRecord} (hi : k.Idle loan.borrower) :
    ((k.takeIds n).issue loan).Pointed := by
  intro i l h hl
  rw [issue_activeLoan, takeIds_activeLoan]
  rcases issue_cases h with ⟨rfl, rfl⟩ | ⟨-, h⟩
  · exact update_self ..
  · have hb : l.borrower ≠ loan.borrower := fun hb => hi i l h hb hl
    rw [update_of_ne hb]
    exact hp i l h hl

theorem Idle.issue {b : Address} (hi : k.Idle b) (n : Nat) {loan : LoanRecord} (hb : loan.borrower ≠ b) :
    ((k.takeIds n).issue loan).Idle b := by
  intro i l h hl
  rcases issue_cases h with ⟨-, rfl⟩ | ⟨-, h⟩
  · exact absurd hl hb
  · exact hi i l h hl

/-- A pool of distinct borrowers gives each of them one loan. -/
theorem Pointed.pool {k' : LoanBook} {pool : List (Address × Int)} (hp : k.Pointed) {token : Address}
    (he : PoolEffect token k pool k') (hi : ∀ e ∈ pool, k.Idle e.1) (hd : (pool.map Prod.fst).Nodup) : k'.Pointed := by
  induction he with
  | nil => exact hp
  | cons hf _ _ _ ih =>
    rw [List.map_cons, List.nodup_cons] at hd
    have hidle := hi _ List.mem_cons_self
    refine ih (hp.issue 1 (hf.borrower ▸ hidle)) (fun e he => ?_) hd.2
    refine (hi e (List.mem_cons_of_mem _ he)).issue 1 ?_
    rintro hb
    rw [hf.borrower] at hb
    exact hd.1 (List.mem_map.2 ⟨e, he, hb.symm⟩)

end LoanBook

/-- What keeps one active loan: no loan is settled by its flag while its status
is Active, and no pool names a borrower twice. -/
def Op.settlesStatus (k : LoanBook) : Op → Prop
  | .slash _ b | .claimExpiredLoan b => ∀ loan, k.getActiveLoanRecord b = some loan → loan.status ≠ .active
  | .createLoanPool _ borrowers _ => borrowers.Nodup
  | _ => True

variable {k : LoanBook}

theorem LoanBook.Pointed.effect {k' : LoanBook} {w : World} {op : Op} (hp : k.Pointed) (hk : k.Keyed)
    (he : Effect w k op k') (hop : op.settlesStatus k) : k'.Pointed := by
  cases he with
  | looked _ => exact hp.markAll w.now _
  | @requested b amount threshold purpose token loan hidle hf _ _ =>
    have hmarked := hp.markAll w.now (k.borrowerLoanIds b)
    obtain ⟨ids, h⟩ := LoanBook.openLoan_eq ((k.markAll w.now (k.borrowerLoanIds b)).takeIds 2) loan
    rw [h]
    exact (hmarked.issue 2 (hf.borrower ▸ hmarked.idle hidle)).congr rfl rfl
  | paid ho hs hst _ _ =>
    exact hp.setLoan (hs.id ▸ (hk.loan_to_repay ho).1) hs.borrower (by rw [hst]; exact id)
  | recovered ho _ hs hst _ _ =>
    exact hp.setLoan (hs.id ▸ (hk.loan_to_repay ho).1) hs.borrower (by rw [hst]; exact nofun)
  | closed ho hd hs hst _ _ =>
    obtain ⟨hl, -, hptr⟩ := hk.loan_to_repay ho
    have hptr := hptr.resolve_right fun h => hd h.2
    exact (hp.settle (hs.id ▸ hl) (hs.id ▸ hptr) hs.borrower (by rw [hst]; exact nofun)).congr rfl rfl
  | paidPartial ho hs hst _ _ =>
    exact hp.setLoan (hs.id ▸ (hk.active_record ho).2.1) hs.borrower (by rw [hst]; exact id)
  | @refinanced b amount threshold token old new loan ho hs hst _ _ hf _ _ =>
    obtain ⟨hptr, hl, -⟩ := hk.active_record ho
    have hst' : new.status ≠ .active := by rw [hst]; exact nofun
    refine (hp.settle (hs.id ▸ hl) (hs.id ▸ hptr) hs.borrower hst').issue 1 ?_
    rw [hf.borrower]
    exact hp.idle_of_setLoan (hs.id ▸ hptr) hst'
  | pooled hlen hidle hpool =>
    refine hp.pool hpool (fun e he => hp.idle (hidle _ (List.of_mem_zip he).1)) ?_
    rw [List.map_fst_zip hlen.le]
    exact hop
  | @slashed signers b loan ho _ =>
    obtain ⟨hptr, hl, -⟩ := hk.active_record ho
    have hset : ((k.setLoan loan.id { loan with defaulted := true }).setActiveLoan b none).Pointed :=
      hp.settle hl hptr rfl (hop loan ho)
    exact hset.congr rfl rfl
  | autoSlashed _ _ => exact hp
  | @claimed b loan ho _ _ =>
    obtain ⟨hptr, hl, -⟩ := hk.active_record ho
    have hset : ((k.setLoan loan.id { loan with defaulted := true }).setActiveLoan b none).Pointed :=
      hp.settle hl hptr rfl (hop loan ho)
    exact hset.congr rfl rfl
  | @executedVote b loan ho _ | @executedPending b loan ho _ =>
    obtain ⟨hptr, hl, -⟩ := hk.active_record ho
    have hset : ((k.setLoan loan.id { loan with status := .defaulted }).setActiveLoan b none).Pointed :=
      hp.settle hl hptr rfl nofun
    exact hset.congr rfl rfl

theorem History.pointed {h s} (hr : History h s)
    (hok : Along (WhenDone fun s op => op.settlesStatus s.store.book) h) : s.store.book.Pointed :=
  hr.bookWhen (fun _ _ h => nomatch h) (fun hr hp he hop => hp.effect hr.keyed he hop) hok

/-- In every run in which no call settles a loan by its flag while its status is
Active and no pool names a borrower twice, every borrower has at most one active
loan, and the pointer leads to it. -/
theorem single_active {h s} (hr : History h s)
    (hok : Along (WhenDone fun s op => op.settlesStatus s.store.book) h) (b : Address) :
    s.store.book.SingleActive b :=
  (hr.pointed hok).single hr.keyed b

theorem single_active_poolLoan : (start.play poolLoan).store.book.SingleActive 10 := by
  refine single_active ((History.genesis sampleWorld sampleBank).play _) ?_ 10
  refine List.forall_mem_cons.2 ⟨fun _ => (by decide : [10].Nodup), ?_⟩
  exact List.forall_mem_cons.2 ⟨fun _ => trivial, List.forall_mem_nil _⟩

theorem LoanBook.not_singleActive {b : Address} {id : Nat}
    (hl : (k.loan id).any (fun loan => loan.borrower = b ∧ loan.status = .active) = true) (ha : k.activeLoan b = none) :
    ¬ k.SingleActive b := by
  intro h
  obtain ⟨loan, hloan, hp⟩ := (Option.any_eq_true _ _).1 hl
  have hp := of_decide_eq_true hp
  have hptr := h.pointed id loan hloan hp.1 hp.2
  rw [ha] at hptr
  cases hptr

/-- The slashed loan keeps its status Active, and nothing leads to it. -/
theorem slashed_stays_active :
    Reachable (start.play slashedLoan) ∧ ¬ (start.play slashedLoan).store.book.SingleActive 10 := by
  have hl : ((start.play slashedLoan).store.book.loan 1).any (fun loan => loan.borrower = 10 ∧
      loan.status = .active) = true := by
    decide +kernel
  exact ⟨Reachable.script .., LoanBook.not_singleActive hl (by decide +kernel)⟩

/-! ## How a status moves -/

/-- The moves of a loan's status, and staying put. -/
inductive StatusMove : LoanStatus → LoanStatus → Prop
  | stay {st} : StatusMove st st
  | repaid : StatusMove .active .repaid
  | defaulted : StatusMove .active .defaulted
  | recovered : StatusMove .defaulted .repaid

theorem StatusMove.trans {a b c : LoanStatus} (h : StatusMove a b) (h' : StatusMove b c) : StatusMove a c := by
  cases h <;> cases h' <;> constructor

/-- Every loan is still there, and its status has moved as it may. -/
def LoanBook.MovesTo (k k' : LoanBook) : Prop :=
  ∀ id loan, k.loan id = some loan → ∃ loan', k'.loan id = some loan' ∧ StatusMove loan.status loan'.status

/-- The life cycle over one call: statuses move as they may, and a loan settled as
defaulted has that status and is no longer its borrower's active loan. -/
structure LifeCycle (k : LoanBook) (op : Op) (k' : LoanBook) : Prop where
  moves : k.MovesTo k'
  settled : ∀ b loan, op.settles = some b → k.getActiveLoanRecord b = some loan →
    (∃ loan', k'.loan loan.id = some loan' ∧ loan'.status = .defaulted) ∧ k'.activeLoan b ≠ some loan.id

namespace LoanBook

theorem MovesTo.refl (k : LoanBook) : k.MovesTo k := fun _ loan h => ⟨loan, h, .stay⟩

variable {k : LoanBook}

theorem MovesTo.trans {k' k'' : LoanBook} (h : k.MovesTo k') (h' : k'.MovesTo k'') : k.MovesTo k'' := by
  intro id loan hl
  obtain ⟨loan', hl', hm⟩ := h id loan hl
  obtain ⟨loan'', hl'', hm'⟩ := h' id loan' hl'
  exact ⟨loan'', hl'', hm.trans hm'⟩

theorem MovesTo.setLoan {id : Nat} {old new : LoanRecord} (ho : k.loan id = some old)
    (hm : StatusMove old.status new.status) : k.MovesTo (k.setLoan id new) := by
  intro i loan hl
  by_cases hi : i = id
  · subst hi
    rw [ho] at hl
    cases hl
    exact ⟨new, by simp, hm⟩
  · exact ⟨loan, by simp [hi, hl], .stay⟩

theorem MovesTo.mark (now : Nat) (k : LoanBook) (id : Nat) : k.MovesTo (k.markDefault now id) := by
  rcases markDefault_cases now k id with h | ⟨loan, hl, hd, h⟩
  · rw [h]
    exact .refl k
  · rw [h]
    have hm : StatusMove loan.status .defaulted := by
      rw [isLoanDefaulted_active hd]
      exact .defaulted
    have hset : k.MovesTo (k.setLoan id { loan with status := .defaulted }) := .setLoan hl hm
    exact hset

theorem MovesTo.markAll (now : Nat) (k : LoanBook) (ids : List Nat) : k.MovesTo (k.markAll now ids) :=
  markAll_keeps (fun k' id h => h.trans (.mark now k' id)) ids (.refl k)

theorem MovesTo.issue (hk : k.Keyed) {n : Nat} {borrower : Address} {loan : LoanRecord} (hf : Fresh k n borrower loan) :
    k.MovesTo ((k.takeIds (n + 1)).issue loan) := by
  intro i l hl
  have hi : i ≠ loan.id := by
    rintro rfl
    have := hf.id
    rw [hk.unused (by omega)] at hl
    cases hl
  exact ⟨l, by simp [hi, hl], .stay⟩

theorem MovesTo.pool {k' : LoanBook} {pool : List (Address × Int)} (hk : k.Keyed) {token : Address}
    (hp : PoolEffect token k pool k') : k.MovesTo k' := by
  induction hp with
  | nil => exact .refl _
  | cons hf _ _ _ ih => exact (MovesTo.issue hk hf).trans (ih (hk.issue hf))

/-- Any stored loan may be repaid, or stay as it is. -/
theorem Keyed.status_move (hk : k.Keyed) {id : Nat} {old new : LoanRecord} (ho : k.loan id = some old)
    (hst : new.status = old.status ∨ new.status = .repaid) : StatusMove old.status new.status := by
  rcases hst with h | h
  · rw [h]
    exact .stay
  · have hn := hk.status ho
    rw [h]
    cases hs : old.status with
    | none => exact absurd hs hn
    | active => exact .repaid
    | repaid => exact .stay
    | defaulted => exact .recovered

theorem MovesTo.store (hk : k.Keyed) {old new : LoanRecord} (ho : k.loan old.id = some old) (hs : SameLoan old new)
    (hst : new.status = old.status ∨ new.status = .repaid) : k.MovesTo (k.setLoan new.id new) :=
  .setLoan (hs.id ▸ ho) (hk.status_move ho hst)

/-- A call that settles no loan moves every status as it may. -/
theorem MovesTo.effect {k' : LoanBook} {w : World} {op : Op} (hk : k.Keyed) (he : Effect w k op k')
    (hop : op.settles = none) : k.MovesTo k' := by
  cases he with
  | looked _ => exact .markAll w.now k _
  | @requested b amount threshold purpose token loan _ hf _ _ =>
    obtain ⟨ids, h⟩ := openLoan_eq ((k.markAll w.now (k.borrowerLoanIds b)).takeIds 2) loan
    rw [h]
    exact (MovesTo.markAll w.now k _).trans (.issue (hk.markAll w.now _) hf)
  | paid ho hs hst _ _ => exact .store hk (hk.loan_to_repay ho).1 hs (.inl hst)
  | recovered ho _ hs hst _ _ | closed ho _ hs hst _ _ => exact .store hk (hk.loan_to_repay ho).1 hs (.inr hst)
  | paidPartial ho hs hst _ _ => exact .store hk (hk.active_record ho).2.1 hs (.inl hst)
  | @refinanced b amount threshold token old new loan ho hs hst _ _ hf _ _ =>
    have hl := (hk.active_record ho).2.1
    have hclosed := (hk.store hl hs (.inr hst)).release b
    exact (MovesTo.store hk hl hs (.inr hst)).trans (.issue hclosed (hf.congr rfl))
  | pooled _ _ hp => exact .pool hk hp
  | slashed | autoSlashed | claimed | executedVote | executedPending => cases hop

end LoanBook

/-- What a settlement must find: a slash by flag, a status that is already
Defaulted; a slash by vote, one that is Active. `auto_slash` touches neither
status nor pointer. -/
def Op.settlesSoundly (k : LoanBook) : Op → Prop
  | .slash _ b | .claimExpiredLoan b => ∀ loan, k.getActiveLoanRecord b = some loan → loan.status = .defaulted
  | .executeSlashVote b | .executePendingSlash b =>
    ∀ loan, k.getActiveLoanRecord b = some loan → loan.status = .active
  | .autoSlash _ => False
  | _ => True

theorem Op.settlesSoundly_of_settles {op : Op} (h : op.settles = none) : op.settlesSoundly k := by
  cases op
  case slash | autoSlash | claimExpiredLoan | executeSlashVote | executePendingSlash => cases h
  all_goals exact trivial

/-- A settlement by flag keeps the status it finds. -/
theorem lifeCycle_flagged {k' : LoanBook} {op : Op} {b : Address} {loan : LoanRecord} (hk : k.Keyed)
    (hop : op.settles = some b) (ho : k.getActiveLoanRecord b = some loan)
    (hl' : k'.loan = update k.loan loan.id (some { loan with defaulted := true })) (ha' : k'.activeLoan b = none) :
    LifeCycle k op k' ↔ loan.status = .defaulted := by
  obtain ⟨-, hl, -⟩ := hk.active_record ho
  constructor
  · intro h
    obtain ⟨⟨loan', hloan', hst⟩, -⟩ := h.settled b loan hop ho
    rw [hl', update_self] at hloan'
    cases hloan'
    exact hst
  · intro hst
    refine ⟨fun i l h => ?_, fun b' loan' hb ho' => ?_⟩
    · rw [hl']
      have hset : k.MovesTo (k.setLoan loan.id { loan with defaulted := true }) := .setLoan hl .stay
      exact hset i l h
    · rw [hop] at hb
      cases hb
      rw [ho] at ho'
      cases ho'
      rw [hl', ha']
      exact ⟨⟨_, update_self .., hst⟩, nofun⟩

/-- A settlement by vote sets the status. -/
theorem lifeCycle_executed {op : Op} {b : Address} {loan : LoanRecord} (hk : k.Keyed) (hop : op.settles = some b)
    (ho : k.getActiveLoanRecord b = some loan) (hst : loan.status ≠ .defaulted) :
    LifeCycle k op (k.settleDefaulted b loan) ↔ loan.status = .active := by
  obtain ⟨-, hl, -⟩ := hk.active_record ho
  have hl' : (k.settleDefaulted b loan).loan loan.id = some { loan with status := .defaulted } := update_self ..
  constructor
  · intro h
    obtain ⟨loan', hloan', hm⟩ := h.moves loan.id loan hl
    rw [hl'] at hloan'
    cases hloan'
    generalize loan.status = st at hm hst
    cases hm with
    | stay => exact absurd rfl hst
    | defaulted => rfl
  · intro hactive
    refine ⟨?_, fun b' loan' hb ho' => ?_⟩
    · have hm : StatusMove loan.status .defaulted := by
        rw [hactive]
        exact .defaulted
      have hset : k.MovesTo (k.setLoan loan.id { loan with status := .defaulted }) := .setLoan hl hm
      exact hset
    · rw [hop] at hb
      cases hb
      rw [ho] at ho'
      cases ho'
      have ha' : (k.settleDefaulted b loan).activeLoan b = none := update_self ..
      rw [ha']
      exact ⟨⟨_, hl', rfl⟩, nofun⟩

theorem LifeCycle.effect_iff {k' : LoanBook} {w : World} {op : Op} (hk : k.Keyed) (he : Effect w k op k') :
    LifeCycle k op k' ↔ op.settlesSoundly k := by
  by_cases hop : op.settles = none
  · refine ⟨fun _ => Op.settlesSoundly_of_settles hop, fun _ => ⟨.effect hk he hop, fun b loan hb => ?_⟩⟩
    rw [hop] at hb
    cases hb
  · cases he with
    | @slashed signers b loan ho _ =>
      rw [lifeCycle_flagged hk rfl ho rfl (update_self ..)]
      simp [Op.settlesSoundly, ho]
    | @claimed b loan ho _ _ =>
      rw [lifeCycle_flagged hk rfl ho rfl (update_self ..)]
      simp [Op.settlesSoundly, ho]
    | @autoSlashed b loan ho _ =>
      refine ⟨fun h => ?_, fun h => h.elim⟩
      exact (h.settled b loan rfl ho).2 (hk.active_record ho).1
    | @executedVote b loan ho hst | @executedPending b loan ho hst =>
      rw [lifeCycle_executed hk rfl ho hst]
      simp [Op.settlesSoundly, ho]
    | looked honly =>
      cases op <;> first | exact absurd rfl hop | cases honly
    | _ => exact absurd rfl hop

/-- A call that goes through keeps to the life cycle exactly when it settles
nothing or settles soundly. -/
theorem lifeCycle_iff {s : State} {c : Call} {t : Store} (hr : Reachable s) (h : exec c s = .ok t) :
    LifeCycle s.store.book c.op t.book ↔ c.op.settlesSoundly s.store.book := by
  obtain ⟨h', hr⟩ := hr
  exact LifeCycle.effect_iff hr.keyed (effect_of h)

/-- The slash of an active loan, which it breaks off, and the state it is made in. -/
theorem lifeCycle_slash_iff : LifeCycle (start.play poolLoan).store.book (.slash [1] 10)
    (start.play slashedLoan).store.book ↔
    Op.settlesSoundly (start.play poolLoan).store.book (.slash [1] 10) :=
  lifeCycle_iff (c := ⟨[1], .slash [1] 10⟩) (Reachable.script ..) (exec_after (by decide +kernel))

theorem slash_breaks_lifeCycle : Reachable (start.play poolLoan) ∧
    exec ⟨[1], .slash [1] 10⟩ (start.play poolLoan) = .ok (start.play slashedLoan).store ∧
    ¬ LifeCycle (start.play poolLoan).store.book (.slash [1] 10) (start.play slashedLoan).store.book := by
  have hr : Reachable (start.play poolLoan) := Reachable.script ..
  have hexec : exec ⟨[1], .slash [1] 10⟩ (start.play poolLoan) = .ok (start.play slashedLoan).store :=
    exec_after (by decide +kernel)
  refine ⟨hr, hexec, fun h => ?_⟩
  have hactive : ((start.play poolLoan).store.book.getActiveLoanRecord 10).any
      (fun loan => loan.status = .active) = true := by
    decide +kernel
  obtain ⟨loan, hloan, hst⟩ := (Option.any_eq_true _ _).1 hactive
  obtain ⟨h', hr⟩ := hr
  have hsound := (LifeCycle.effect_iff hr.keyed (effect_of hexec)).1 h loan hloan
  rw [of_decide_eq_true hst] at hsound
  cases hsound

end QuorumCredit
