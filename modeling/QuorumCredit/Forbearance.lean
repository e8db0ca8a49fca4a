import QuorumCredit.LoanTerms
/-!
# Forbearance

`request_forbearance` and `end_forbearance` of `loan.rs`: the borrower of an active
loan puts its deadline off, in at most three periods. The loans are those of the
contract, whose calls run in between; no call of either kind moves a deadline
otherwise. Extensions are left out.
-/

open Host Function

namespace QuorumCredit

inductive ForbearanceStatus where
  | active | expired
deriving DecidableEq, Repr

structure ForbearanceRecord where
  loanId : Nat
  borrower : Address
  startedAt : Nat
  durationSecs : Nat
  endsAt : Nat
  originalDeadline : Nat
  periodNumber : Nat
  status : ForbearanceStatus

def defaultForbearanceDurationSecs : Nat := 30 * 24 * 60 * 60
def maxForbearancePeriods : Nat := 3

/-- The contract with the entries `Forbearance(loan_id)`. -/
structure ForbearanceStore where
  core : Store
  forbearance : Nat → Option ForbearanceRecord

instance : Host.Part ForbearanceStore Store where
  get := ForbearanceStore.core
  set x s := { s with core := x }

def storeForbearance (loanId : Nat) (record : ForbearanceRecord) : Contract ForbearanceStore Unit :=
  alter fun s => { s with forbearance := update s.forbearance loanId (some record) }

/-- Whether the loan is overdue is not looked at. -/
def requestForbearance (borrower : Address) (durationSecs : Option Nat) : Contract ForbearanceStore Unit := do
  requireAuth borrower
  (requireNotPaused : Contract Store _)
  let book ← look (·.core.book)
  let loan ← orFail (book.getActiveLoanRecord borrower) (.error .noActiveLoan)
  require (loan.status = .active) (.error .noActiveLoan)
  let existing ← look (·.forbearance loan.id)
  require (existing.all (·.status ≠ .active)) (.error .loanInForbearance)
  let periodNumber ← u32 .arithmetic ((existing.map (·.periodNumber)).getD 0 + 1)
  require (periodNumber ≤ maxForbearancePeriods) (.error .maxForbearanceExceeded)
  let now := (← ask).now
  let duration := durationSecs.getD defaultForbearanceDurationSecs
  let endsAt ← u64 .arithmetic (now + duration)
  let deadline ← u64 .arithmetic (loan.deadline + duration)
  (onBook (·.setLoan loan.id { loan with deadline }) : Contract Store _)
  storeForbearance loan.id
    { loanId := loan.id, borrower, startedAt := now, durationSecs := duration, endsAt
      originalDeadline := deadline - duration, periodNumber, status := .active }

/-- Before its end or after, the period has expired; the deadline stays put off. -/
def endForbearance (borrower : Address) : Contract ForbearanceStore Unit := do
  requireAuth borrower
  (requireNotPaused : Contract Store _)
  let book ← look (·.core.book)
  let loan ← orFail (book.getActiveLoanRecord borrower) (.error .noActiveLoan)
  let record ← orFail (← look (·.forbearance loan.id)) (.error .forbearanceNotFound)
  require (record.status = .active) (.error .forbearanceNotActive)
  storeForbearance loan.id { record with status := .expired }

inductive ForbearanceOp where
  | requestForbearance (borrower : Address) (durationSecs : Option Nat)
  | endForbearance (borrower : Address)
  | core (op : Op)

def ForbearanceOp.run : ForbearanceOp → Contract ForbearanceStore Unit
  | .requestForbearance borrower durationSecs => QuorumCredit.requestForbearance borrower durationSecs
  | .endForbearance borrower => QuorumCredit.endForbearance borrower
  | .core op => monadLift (dispatch op)

/-- The contract with forbearances; elsewhere time passes and tokens move. -/
def forbearances : Component World (List Address) Context Failure ForbearanceStore ForbearanceOp where
  run := ForbearanceOp.run
  context w signers := { w with signers }
  drift w s w' s' := w.now ≤ w'.now ∧ s'.forbearance = s.forbearance ∧ s'.core.book = s.core.book

abbrev ForbearanceHistory :=
  List (Situated World ForbearanceStore × Event World (List Address) ForbearanceStore ForbearanceOp)

/-- After `initialize`. -/
def forbearanceStart (world : World) (bank : Ledger) : Situated World ForbearanceStore :=
  ⟨world, ⟨(genesis world bank).store, fun _ => none⟩⟩

/-! ## What a call does -/

/-- How long the borrower asks for. -/
def askedFor (durationSecs : Option Nat) : Nat := durationSecs.getD defaultForbearanceDurationSecs

/-- The periods the loan has had. -/
def ForbearanceStore.periods (s : ForbearanceStore) (id : Nat) : Nat :=
  ((s.forbearance id).map (·.periodNumber)).getD 0

theorem periods_congr {s t : ForbearanceStore} (h : t.forbearance = s.forbearance) : t.periods = s.periods := by
  unfold ForbearanceStore.periods
  rw [h]

/-- What a call that goes through found and did. -/
inductive ForbearanceEffect (w : World) (s t : ForbearanceStore) : ForbearanceOp → Prop
  | granted {b d loan} : s.core.book.getActiveLoanRecord b = some loan →
      t.core.book = s.core.book.setLoan loan.id { loan with deadline := loan.deadline + askedFor d } →
      t.periods = update s.periods loan.id (s.periods loan.id + 1) → s.periods loan.id + 1 ≤ maxForbearancePeriods →
      ForbearanceEffect w s t (.requestForbearance b d)
  | ended {b} : t.core.book = s.core.book → t.periods = s.periods → ForbearanceEffect w s t (.endForbearance b)
  | core {op} : t.periods = s.periods → Effect w s.core.book op t.core.book → ForbearanceEffect w s t (.core op)

/-- Storing a record stores its number. -/
theorem periods_store (s : ForbearanceStore) (id : Nat) (record : ForbearanceRecord) {core : Store} :
    ForbearanceStore.periods ⟨core, update s.forbearance id (some record)⟩ =
      update s.periods id record.periodNumber := by
  funext i
  by_cases hi : i = id
  · subst hi
    simp [ForbearanceStore.periods]
  · simp [ForbearanceStore.periods, hi]

theorem yields_forbearanceOp {ctx : Context} (op : ForbearanceOp) (s : ForbearanceStore) :
    Yields op.run ctx s fun _ t => ForbearanceEffect ctx.toWorld s t op := by
  cases op with
  | requestForbearance b d =>
    simp only [ForbearanceOp.run, requestForbearance, storeForbearance, onBook, yields_steps, yields_parts,
      yields_requireAuth, yields_u32, yields_u64]
    refine fun _ => (yields_true _ _ _).mono fun _ access _ => ?_
    intro loan hloan _ _ _ hfew _ _
    exact .granted hloan rfl (periods_store s loan.id _) hfew
  | endForbearance b =>
    simp only [ForbearanceOp.run, endForbearance, storeForbearance, yields_steps, yields_parts, yields_requireAuth]
    refine fun _ => (yields_true _ _ _).mono fun _ access _ => ?_
    intro loan _ record hrecord _
    have hrecord : s.forbearance loan.id = some record := hrecord
    have hnumber : s.periods loan.id = record.periodNumber := by simp [ForbearanceStore.periods, hrecord]
    exact .ended rfl ((periods_store s loan.id _).trans (hnumber ▸ update_eq_self ..))
  | core op =>
    simp only [ForbearanceOp.run, yields_parts]
    exact (dispatch_effect op).mono fun _ t ht => .core rfl ht

/-! ## Over a run -/

/-- What the call adds to the deadline of the loan, if it grants a period. -/
def granted (id : Nat) (s : Situated World ForbearanceStore) : ForbearanceOp → List Nat
  | .requestForbearance b d =>
    if (s.store.core.book.getActiveLoanRecord b).any (·.id = id) then [askedFor d] else []
  | _ => []

/-- The durations granted on the loan, newest first. -/
def grants (id : Nat) : ForbearanceHistory → List Nat :=
  forbearances.replay (fun s op _ ds => granted id s op ++ ds) []

/-- From `s` to `t` the loan keeps its terms but for its deadline, which the periods granted have put off. -/
def PutsOff (id : Nat) (ds : List Nat) (s t : ForbearanceStore) : Prop :=
  t.periods id = s.periods id + ds.length ∧ ∀ loan, s.core.book.loan id = some loan →
    ∃ loan', t.core.book.loan id = some loan' ∧ KeepsTerms { loan with deadline := loan.deadline + ds.sum } loan'

section

variable {s : Situated World ForbearanceStore} {signers : List Address} {op : ForbearanceOp} {t : ForbearanceStore}

theorem forbearance_call (hk : s.store.core.book.Keyed) (he : forbearances.exec s signers op = some t) :
    t.core.book.Keyed ∧ (∀ id, PutsOff id (granted id s op) s.store t) ∧
      ∀ id, s.store.periods id ≤ maxForbearancePeriods → t.periods id ≤ maxForbearancePeriods := by
  have heff := Component.exec_yields (Q := fun t => ForbearanceEffect s.world s.store t op)
    (yields_forbearanceOp op s.store) he
  cases heff with
  | core hf hbook =>
    refine ⟨hk.effect hbook, fun id => ⟨congrFun hf id, fun loan hl => ?_⟩, fun id hfew => hf ▸ hfew⟩
    exact LoanBook.Carries.effect hk hbook id loan hl
  | ended hbook hf =>
    refine ⟨hbook ▸ hk, fun id => ⟨congrFun hf id, fun loan hl => ?_⟩, fun id hfew => hf ▸ hfew⟩
    exact ⟨loan, hbook ▸ hl, .refl loan⟩
  | @granted b d loan hloan hbook hf hfew =>
    have hl := (hk.active_record hloan).2.1
    have hst : loan.status ≠ .none := hk.status hl
    refine ⟨hbook ▸ hk.setLoan hl rfl rfl hst, fun id => ?_, fun id hbefore => ?_⟩
    · by_cases hid : id = loan.id
      · subst hid
        have hds : granted loan.id s (.requestForbearance b d) = [askedFor d] := by simp [granted, hloan]
        rw [hds, PutsOff, hf, hbook, LoanBook.setLoan_loan, update_self, update_self, hl]
        refine ⟨rfl, fun old hold => ⟨_, rfl, ?_⟩⟩
        cases hold
        exact .refl _
      · have hds : granted id s (.requestForbearance b d) = [] := by simp [granted, hloan, Ne.symm hid]
        rw [hds, PutsOff, hf, hbook, LoanBook.setLoan_loan, update_of_ne hid, update_of_ne hid]
        exact ⟨rfl, fun old hold => ⟨old, hold, .refl old⟩⟩
    · rw [hf]
      by_cases hid : id = loan.id
      · rwa [hid, update_self]
      · rwa [update_of_ne hid]

theorem PutsOff.trans {id : Nat} {ds ds' : List Nat} {s t u : ForbearanceStore} (h : PutsOff id ds s t)
    (h' : PutsOff id ds' t u) : PutsOff id (ds' ++ ds) s u := by
  refine ⟨by rw [h'.1, h.1, List.length_append]; omega, fun loan hl => ?_⟩
  obtain ⟨loan', hl', hkeeps⟩ := h.2 loan hl
  obtain ⟨loan'', hl'', hkeeps'⟩ := h'.2 loan' hl'
  rw [List.sum_append, Nat.add_comm ds'.sum, ← Nat.add_assoc]
  exact ⟨loan'', hl'', (hkeeps.putOff ds'.sum).trans hkeeps'⟩

end

variable {world : World} {bank : Ledger} {h₀ h : ForbearanceHistory} {s₀ s : Situated World ForbearanceStore}

theorem forbearance_sound (hr : Run forbearances.Step (forbearanceStart world bank) h s) :
    s.store.core.book.Keyed ∧ ∀ id, s.store.periods id ≤ maxForbearancePeriods := by
  refine Component.always (I := fun s => s.core.book.Keyed ∧ ∀ id, s.periods id ≤ maxForbearancePeriods)
    ⟨LoanBook.keyed_empty, fun _ => Nat.zero_le _⟩ (fun hi he => ?_) (fun hi hd => ?_) hr
  · obtain ⟨hkeyed, -, hfew⟩ := forbearance_call hi.1 he
    exact ⟨hkeyed, fun id => hfew id (hi.2 id)⟩
  · obtain ⟨-, hsame, hbook⟩ := hd
    exact ⟨hbook ▸ hi.1, fun id => periods_congr hsame ▸ hi.2 id⟩

/-- From any state of any run on, a loan keeps its terms but for its deadline, which the
periods granted since have put off; and no loan is granted more than three. -/
theorem deadline_put_off (hr₀ : Run forbearances.Step (forbearanceStart world bank) h₀ s₀)
    (hr : Run forbearances.Step s₀ h s) (id : Nat) :
    PutsOff id (grants id h) s₀.store s.store ∧ s.store.periods id ≤ maxForbearancePeriods := by
  refine ⟨?_, (forbearance_sound (hr₀.trans hr)).2 id⟩
  refine Component.inv (I := fun h s => PutsOff id (grants id h) s₀.store s.store)
    ⟨rfl, fun loan hl => ⟨loan, hl, .refl loan⟩⟩ (fun hr' hi he => ?_) (fun hi hnone hsame => ?_) hr
  · rw [grants, Component.replay_call he]
    exact hi.trans ((forbearance_call (forbearance_sound (hr₀.trans hr')).1 he).2.1 id)
  · rw [grants, Component.replay_idle hnone]
    rcases hsame with rfl | ⟨-, hsame, hbook⟩
    · exact hi
    · rw [PutsOff, periods_congr hsame, hbook]
      exact hi

/-- Account 10 asks for a week on the loan of `poolLoan`, and later for the default period. -/
theorem deadline_put_off_poolLoan :
    let calls : List (List Address × ForbearanceOp) := [([10], .requestForbearance 10 (some 604800)),
      ([10], .endForbearance 10), ([10], .requestForbearance 10 none)]
    let s₀ := forbearances.play (forbearanceStart sampleWorld sampleBank)
      [([2], .core (.vouch 2 10 1000000 100 0)), ([1], .core (.createLoanPool [1] [10] [500000]))]
    PutsOff 1 (grants 1 (forbearances.trace s₀ [] calls)) s₀.store (forbearances.play s₀ calls).store ∧
      (forbearances.play s₀ calls).store.periods 1 ≤ maxForbearancePeriods :=
  deadline_put_off (Component.run_play _ .nil _) (Component.run_play _ .nil _) 1

end QuorumCredit
