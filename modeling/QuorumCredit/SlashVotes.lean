import QuorumCredit.Book
/-!
# Slash votes over a run

The record of a slash vote carries no loan id and is never reset: `vote_slash`
refuses an executed vote before it reaches the branch that would start a new
record. So a vote once executed stays closed, and what ties a decision to a loan
is only that no loan is issued while a vote or a pending slash is open.
-/

open Host Function

namespace QuorumCredit

/-! ## What a call does to the ballots -/

/-- The ballots a call leaves, from the storage it found, when it goes through. -/
inductive BallotEffect (s : Store) : Op → Ballots → Prop
  | kept {op} : op.votes = false → BallotEffect s op s.ballots
  | delegated {voucher delegate} : BallotEffect s (.delegateVote voucher delegate)
      { s.ballots with voteDelegation := update s.ballots.voteDelegation voucher (some delegate) }
  | revoked {voucher} : BallotEffect s (.revokeVoteDelegation voucher)
      { s.ballots with voteDelegation := update s.ballots.voteDelegation voucher none }
  | deferred {voter borrower approve} :
      (∀ v, s.ballots.slashVote borrower = some v → v.executed = false) →
      s.ballots.resolveVoteDelegation voter ≠ voter →
      BallotEffect s (.voteSlash voter borrower approve) s.ballots
  | counted {voter borrower approve vote loan} :
      (∀ v, s.ballots.slashVote borrower = some v → v.executed = false) →
      s.book.getActiveLoanRecord borrower = some loan → vote.executed = false →
      BallotEffect s (.voteSlash voter borrower approve)
        { s.ballots with slashVote := update s.ballots.slashVote borrower (some vote) }
  | decided {voter borrower approve vote pending loan} :
      (∀ v, s.ballots.slashVote borrower = some v → v.executed = false) →
      s.book.getActiveLoanRecord borrower = some loan → vote.executed = true → pending.executed = false →
      BallotEffect s (.voteSlash voter borrower approve)
        { s.ballots with
          slashVote := update s.ballots.slashVote borrower (some vote)
          pendingSlash := update s.ballots.pendingSlash borrower (some pending) }
  | executedVote {borrower vote} :
      s.ballots.slashVote borrower = some vote → vote.executed = false →
      BallotEffect s (.executeSlashVote borrower)
        { s.ballots with slashVote := update s.ballots.slashVote borrower (some { vote with executed := true }) }
  | executedPending {borrower pending} :
      s.ballots.pendingSlash borrower = some pending → pending.executed = false →
      BallotEffect s (.executePendingSlash borrower)
        { s.ballots with
          pendingSlash := update s.ballots.pendingSlash borrower (some { pending with executed := true }) }

section Calls

variable {ctx : Context} {s : Store}

@[simp] theorem yields_setSlashVote (borrower : Address) (vote : SlashVoteRecord) (x : Ballots)
    (Q : Unit → Ballots → Prop) :
    Yields (setSlashVote borrower vote) ctx x Q ↔
      Q () { x with slashVote := update x.slashVote borrower (some vote) } := by
  simp [setSlashVote]

@[simp] theorem yields_setPendingSlash (borrower : Address) (pending : PendingSlashRecord) (x : Ballots)
    (Q : Unit → Ballots → Prop) :
    Yields (setPendingSlash borrower pending) ctx x Q ↔
      Q () { x with pendingSlash := update x.pendingSlash borrower (some pending) } := by
  simp [setPendingSlash]

/-- Counting a vote stores the record, executed exactly if a pending slash goes with it. -/
theorem recordVote_spec (borrower : Address) (vote : SlashVoteRecord) (totalStake : Int) (x : Ballots) :
    Yields (recordVote borrower vote totalStake) ctx x fun _ x' =>
      x' = { x with slashVote := update x.slashVote borrower (some vote) } ∨
      ∃ p : PendingSlashRecord, p.executed = false ∧
        x' = { x with
          slashVote := update x.slashVote borrower (some { vote with executed := true })
          pendingSlash := update x.pendingSlash borrower (some p) } := by
  unfold recordVote
  simp only [yields_steps]
  have hquorum : Yields (quorumReached vote.approveStake totalStake) ctx x fun _ x' => x' = x := by
    simp only [quorumReached, yields_steps]
    split <;> simp
  refine hquorum.mono ?_
  rintro reached _ rfl
  split
  · simp only [yields_bind, yields_setSlashVote, yields_u64, yields_setPendingSlash]
    intro _
    exact .inr ⟨_, rfl, rfl⟩
  · rw [yields_setSlashVote]
    exact .inl rfl

theorem castVote_ballots (voter borrower : Address) (approve : Bool) (vouches : List VouchRecord) (book : LoanBook)
    (x : Ballots) (hopen : ∀ v, x.slashVote borrower = some v → v.executed = false) :
    Yields (castVote voter borrower approve vouches book) ctx x fun _ x' =>
      (∃ v, v.executed = false ∧ x' = { x with slashVote := update x.slashVote borrower (some v) }) ∨
      ∃ v p, v.executed = true ∧ p.executed = false ∧
        x' = { x with
          slashVote := update x.slashVote borrower (some v)
          pendingSlash := update x.pendingSlash borrower (some p) } := by
  have hexec : ((x.slashVote borrower).getD .fresh).executed = false := by
    cases hv : x.slashVote borrower with
    | none => rfl
    | some v => exact hopen v hv
  unfold castVote
  simp only [yields_steps, id_eq]
  intro own _
  refine (yields_sumI128 _ _ _ _ _).mono ?_
  rintro totalStake _ ⟨-, rfl⟩
  refine (yields_sumI128 _ _ _ _ _).mono ?_
  rintro stake _ ⟨-, rfl⟩
  -- the record is not executed, so the reset branch is out of reach
  simp only [openVote, hexec, Bool.false_eq_true, if_false, yields_steps, addVote, yields_i128]
  intro _ _ _
  refine (recordVote_spec _ _ _ _).mono ?_
  rintro _ _ (rfl | ⟨p, hp, rfl⟩)
  · exact .inl ⟨_, rfl, rfl⟩
  · exact .inr ⟨_, p, rfl, hp, rfl⟩

theorem requireSlashable_spec (borrower : Address) (k : LoanBook) :
    Yields (requireSlashable borrower) ctx k fun _ k' =>
      k' = k ∧ ∃ loan, k.getActiveLoanRecord borrower = some loan := by
  have hactive : Yields (do
      let loan ← orFail (k.getActiveLoanRecord borrower) (Failure.error .noActiveLoan)
      require (loan.status = .active) (.error .noActiveLoan)) ctx k fun _ k' =>
        k' = k ∧ ∃ loan, k.getActiveLoanRecord borrower = some loan := by
    simp only [yields_steps]
    intro loan hloan _
    exact ⟨trivial, loan, hloan⟩
  simp only [requireSlashable, yields_steps, id_eq]
  split
  · rw [yields_bind, yields_require]
    exact fun _ => hactive
  · exact hactive

/-- The loans and the vouches, which a vote looks at. -/
def Store.voted (s : Store) : LoanBook × Vault := (s.book, s.vault)

instance : Apart Store.voted Access where

/-- A vote is deferred to the delegate, or cast on the ballots, loans and vouches that the call finds. -/
theorem yields_voteSlash {voter borrower : Address} {approve : Bool} {P : Store → Prop}
    (hdeferred : (∀ v, s.ballots.slashVote borrower = some v → v.executed = false) →
      s.ballots.resolveVoteDelegation voter ≠ voter → ∀ t : Store, t.ballots = s.ballots → P t)
    (hcast : ∀ loan, (∀ v, s.ballots.slashVote borrower = some v → v.executed = false) →
      s.book.getActiveLoanRecord borrower = some loan → s.ballots.resolveVoteDelegation voter = voter →
        Yields (castVote voter borrower approve (s.vault.vouching.vouchesOf borrower) s.book) ctx s.ballots
          fun _ x => ∀ t : Store, t.ballots = x → P t) :
    Yields (voteSlash voter borrower approve) ctx s fun _ t => P t := by
  unfold voteSlash
  simp only [yields_bind, yields_requireAuth, yields_look, yields_require, lift_eq_zoom, lift_self]
  intro _
  refine yields_keeps₂ Store.ballots Store.voted fun _ s₁ h₁ k₁ => ?_
  rw [h₁]
  intro hopen
  refine yields_keeps₂ Store.ballots Store.voted fun _ s₂ h₂ k₂ => ?_
  obtain ⟨hbook, hvault⟩ := Prod.mk.inj (k₂.trans k₁)
  have hballots : s₂.ballots = s.ballots := h₂.trans h₁
  refine (yields_zoom _ _ _ _).2 ((requireSlashable_spec borrower _).mono ?_)
  rintro _ k ⟨rfl, loan, hloan⟩
  rw [Host.Part.set_get, hbook, hvault]
  refine (yields_ite _ _ _ _ _ _).2 ⟨fun hdefer => ?_, fun hvotes => ?_⟩
  · rw [yields_pure]
    exact hdeferred hopen hdefer _ hballots
  · simp only [yields_bind, yields_pure]
    refine (yields_zoom _ _ _ _).2 ?_
    have hcounts := hcast loan hopen (hbook ▸ hloan) (not_not.1 hvotes)
    rw [← hballots] at hcounts
    exact hcounts.mono fun _ x hx => hx _ rfl

theorem voteSlash_ballots (voter borrower : Address) (approve : Bool) :
    Yields (voteSlash voter borrower approve) ctx s fun _ t =>
      BallotEffect s (.voteSlash voter borrower approve) t.ballots := by
  refine yields_voteSlash (fun hopen hdefer t ht => ?_) fun loan hopen hloan _ => ?_
  · rw [ht]
    exact .deferred hopen hdefer
  · refine (castVote_ballots _ _ _ _ _ _ hopen).mono ?_
    rintro _ _ (⟨v, hv, rfl⟩ | ⟨v, p, hv, hp, rfl⟩) t ht
    · rw [ht]
      exact .counted hopen hloan hv
    · rw [ht]
      exact .decided hopen hloan hv hp

set_option synthInstance.maxSize 200000 in
instance (borrower : Address) : Keeps Store.ballots (executeSlash borrower) := by
  unfold executeSlash; infer_instance

theorem executeSlashVote_ballots (borrower : Address) :
    Yields (executeSlashVote borrower) ctx s fun _ t => BallotEffect s (.executeSlashVote borrower) t.ballots := by
  unfold executeSlashVote
  simp only [yields_bind, yields_ask, yields_look, yields_orFail, yields_require, lift_eq_zoom, lift_self]
  refine yields_keeps Store.ballots fun _ s₁ h₁ => ?_
  rw [h₁]
  intro vote hvote hopen
  refine yields_keeps Store.ballots fun _ s₂ h₂ => ?_
  intro _
  refine (yields_zoom _ _ _ _).2 ((yields_setSlashVote _ _ _ _).2 ?_)
  refine yields_keeps Store.ballots fun _ t ht => ?_
  have hballots : s₂.ballots = s.ballots := h₂.trans h₁
  rw [ht]
  change BallotEffect s _
    { s₂.ballots with slashVote := update s₂.ballots.slashVote borrower (some { vote with executed := true }) }
  rw [hballots]
  exact .executedVote hvote hopen

theorem executePendingSlash_ballots (borrower : Address) :
    Yields (executePendingSlash borrower) ctx s fun _ t => BallotEffect s (.executePendingSlash borrower)
      t.ballots := by
  unfold executePendingSlash
  simp only [yields_bind, yields_ask, yields_look, yields_orFail, yields_require, lift_eq_zoom, lift_self]
  refine yields_keeps Store.ballots fun _ s₁ h₁ => ?_
  rw [h₁]
  intro pending hpending hopen _
  refine (yields_zoom _ _ _ _).2 ((yields_setPendingSlash _ _ _ _).2 ?_)
  refine yields_keeps Store.ballots fun _ t ht => ?_
  rw [ht]
  change BallotEffect s _
    { s₁.ballots with
      pendingSlash := update s₁.ballots.pendingSlash borrower (some { pending with executed := true }) }
  rw [h₁]
  exact .executedPending hpending hopen

theorem dispatch_ballots (op : Op) : Yields (dispatch op) ctx s fun _ t => BallotEffect s op t.ballots := by
  by_cases hvotes : op.votes = false
  · have hkeeps := dispatch_keeps_ballots hvotes
    refine yields_keeps Store.ballots fun _ t ht => ?_
    rw [ht]
    exact .kept hvotes
  · cases op with
    | voteSlash voter borrower approve =>
      simpa [dispatch, discard] using voteSlash_ballots voter borrower approve
    | executeSlashVote borrower => exact executeSlashVote_ballots borrower
    | executePendingSlash borrower => exact executePendingSlash_ballots borrower
    | delegateVote voucher delegate =>
      simp only [dispatch, delegateVote, yields_bind, yields_requireAuth, yields_look, yields_require, lift_eq_zoom,
        lift_self]
      intro _
      refine yields_keeps Store.ballots fun _ s₁ h₁ => ?_
      intro _ _
      refine (yields_zoom _ _ _ _).2 ((yields_alter _ _ _ _).2 ?_)
      change BallotEffect s _
        { s₁.ballots with voteDelegation := update s₁.ballots.voteDelegation voucher (some delegate) }
      rw [h₁]
      exact .delegated
    | revokeVoteDelegation voucher =>
      simp only [dispatch, revokeVoteDelegation, yields_bind, yields_requireAuth, yields_look, yields_require,
        lift_eq_zoom, lift_self]
      intro _
      refine yields_keeps Store.ballots fun _ s₁ h₁ => ?_
      intro _
      refine (yields_zoom _ _ _ _).2 ((yields_alter _ _ _ _).2 ?_)
      change BallotEffect s _
        { s₁.ballots with voteDelegation := update s₁.ballots.voteDelegation voucher none }
      rw [h₁]
      exact .revoked
    | _ => exact absurd rfl hvotes

end Calls

variable {s : State} {b voter : Address} {approve : Bool} {h : List (State × Move)}

theorem ballots_of {c : Call} {t : Store} (h : exec c s = .ok t) : BallotEffect s.store c.op t.ballots :=
  yields_exec (dispatch_ballots c.op) h

/-! ## A closed vote stays closed -/

/-- A slash vote on the borrower has been executed. -/
def Ballots.Closed (x : Ballots) (b : Address) : Prop :=
  ∃ v, x.slashVote b = some v ∧ v.executed = true

theorem BallotEffect.closed {s : Store} {op : Op} {x : Ballots} (he : BallotEffect s op x) (h : s.ballots.Closed b) :
    x.Closed b := by
  obtain ⟨v, hv, hx⟩ := h
  cases he with
  | kept _ | delegated | revoked | deferred _ _ | executedPending _ _ => exact ⟨v, hv, hx⟩
  | @counted voter borrower approve vote loan hopen _ _
  | @decided voter borrower approve vote pending loan hopen _ _ _ =>
    have hb : b ≠ borrower := by
      rintro rfl
      rw [hopen v hv] at hx
      cases hx
    exact ⟨v, (update_of_ne hb ..).trans hv, hx⟩
  | @executedVote borrower vote _ _ =>
    by_cases hb : b = borrower
    · subst hb
      exact ⟨_, update_self .., rfl⟩
    · exact ⟨v, (update_of_ne hb ..).trans hv, hx⟩

theorem Step.closed {s m s'} (hst : Step s m s') (h : s.store.ballots.Closed b) : s'.store.ballots.Closed b := by
  cases hst with
  | done hd => exact (ballots_of hd).closed h
  | refused _ | elsewhere _ _ => exact h

theorem closed_run {s h s'} (hr : Run Step s h s') (hc : s.store.ballots.Closed b) : s'.store.ballots.Closed b :=
  Run.always (fun s => s.store.ballots.Closed b) hc (fun _ _ _ hc hst => hst.closed hc) hr

/-- A vote that goes through was still open. -/
theorem BallotEffect.open {s : Store} {x : Ballots} (he : BallotEffect s (.voteSlash voter b approve) x) :
    ¬ s.ballots.Closed b := by
  rintro ⟨v, hv, hx⟩
  have hopen : ∀ v, s.ballots.slashVote b = some v → v.executed = false := by
    cases he with
    | kept hvotes => cases hvotes
    | deferred hopen _ | counted hopen _ _ | decided hopen _ _ _ => exact hopen
  rw [hopen v hv] at hx
  cases hx

/-- The contract takes votes: it is not paused, and the voter signed. -/
def CanVote (s : State) (signers : List Address) (voter : Address) : Prop :=
  voter ∈ signers ∧ voter ≠ s.world.contract ∧
    ∃ a, requireNotPaused { s.world with signers } s.store.access = .ok ((), a)

/-- On a closed vote, nobody's vote is taken. -/
theorem voteSlash_closed {ctx : Context} {s : Store} {a : Access} (hc : s.ballots.Closed b)
    (hsigned : voter ∈ ctx.signers ∧ voter ≠ ctx.contract) (hpause : requireNotPaused ctx s.access = .ok ((), a)) :
    voteSlash voter b approve ctx s = .error (.error .slashAlreadyExecuted) := by
  obtain ⟨v, hv, hx⟩ := hc
  have hauth : (requireAuth voter : Contract Store Unit) ctx s = .ok ((), s) := by
    simp only [requireAuth, run_bind, run_ask, run_require, if_pos hsigned]
  have hnotPaused : (zoom requireNotPaused : Contract Store Unit) ctx s = .ok ((), { s with access := a }) := by
    have hpause' : requireNotPaused ctx (Host.Part.get s) = .ok ((), a) := hpause
    rw [run_zoom, hpause']
    rfl
  have hrefused : ¬ ∀ v, s.ballots.slashVote b = some v → v.executed = false := by
    intro h
    rw [h v hv] at hx
    cases hx
  unfold voteSlash
  simp only [yields_parts]
  rw [run_bind_ok hauth, run_bind_ok hnotPaused, run_bind_ok (run_look ..), run_bind_error]
  rw [run_require]
  exact if_neg hrefused

theorem exec_voteSlash_closed {signers : List Address} (hc : s.store.ballots.Closed b)
    (hcan : CanVote s signers voter) :
    exec ⟨signers, .voteSlash voter b approve⟩ s = .error (.error .slashAlreadyExecuted) := by
  obtain ⟨hsigned, hother, a, ha⟩ := hcan
  have hrun : voteSlash voter b approve (s.context ⟨signers, .voteSlash voter b approve⟩) s.store =
      .error (.error .slashAlreadyExecuted) := voteSlash_closed hc ⟨hsigned, hother⟩ ha
  have hdispatch : dispatch (.voteSlash voter b approve) (s.context ⟨signers, .voteSlash voter b approve⟩) s.store =
      .error (.error .slashAlreadyExecuted) := run_bind_error hrun _
  rw [exec, hdispatch]

/-- The vote is taken, in a record that holds no other vote. -/
def CountedAfresh (s : State) (signers : List Address) (voter b : Address) (approve : Bool) : Prop :=
  ∃ t vote, exec ⟨signers, .voteSlash voter b approve⟩ s = .ok t ∧ t.ballots.slashVote b = some vote ∧
    vote.voters = [voter]

/-- After a slash vote on a borrower has been executed, in no run is a vote on
the borrower counted again, whatever loans the borrower has had since: it is
refused as already executed, even when the voter signed and the contract is open. -/
theorem voting_never_reopens {s h' s'} {b : Address} (hc : s.store.ballots.Closed b) (hr : Run Step s h' s')
    (signers : List Address) (voter : Address) (approve : Bool) :
    ¬ CountedAfresh s' signers voter b approve ∧
      (CanVote s' signers voter →
        exec ⟨signers, .voteSlash voter b approve⟩ s' = .error (.error .slashAlreadyExecuted)) := by
  have hc' := closed_run hr hc
  refine ⟨?_, exec_voteSlash_closed hc'⟩
  rintro ⟨t, vote, hexec, -⟩
  exact (ballots_of hexec).open hc'

theorem canVote_of {signers : List Address} (hsigned : voter ∈ signers) (hother : voter ≠ s.world.contract)
    (hopen : (requireNotPaused { s.world with signers } s.store.access).toBool = true) : CanVote s signers voter := by
  refine ⟨hsigned, hother, ?_⟩
  cases hrun : requireNotPaused { s.world with signers } s.store.access with
  | ok p => exact ⟨p.2, rfl⟩
  | error e => rw [hrun] at hopen; cases hopen

theorem closed_iff {x : Ballots} : x.Closed b ↔ (x.slashVote b).any (·.executed) = true := by
  rw [Option.any_eq_true]
  rfl

/-- Account 2's vote alone reaches the quorum. -/
def executedVote : List Act := poolLoan ++ [.call [2] (.voteSlash 2 10 true)]

/-- The slash is executed, and account 3 backs another loan to account 10. -/
def secondLoan : List Act :=
  [.call [2] (.executePendingSlash 10), .call [3] (.vouch 3 10 1000000 100 0),
    .call [1] (.createLoanPool [1] [10] [500000])]

theorem second_vote_not_counted : ¬ CountedAfresh ((start.play executedVote).play secondLoan) [3] 3 10 true ∧
    (CanVote ((start.play executedVote).play secondLoan) [3] 3 →
      exec ⟨[3], .voteSlash 3 10 true⟩ ((start.play executedVote).play secondLoan) =
        .error (.error .slashAlreadyExecuted)) :=
  voting_never_reopens (closed_iff.2 (by decide +kernel)) (run_play .nil secondLoan) [3] 3 true

/-- Account 3 stakes behind an active loan and cannot vote on it. -/
theorem second_vote_refused :
    Reachable ((start.play executedVote).play secondLoan) ∧ (start.play executedVote).store.ballots.Closed 10 ∧
      ((start.play executedVote).play secondLoan).store.book.hasActiveLoan 10 = true ∧
      (findVouch 3 (((start.play executedVote).play secondLoan).store.vault.vouching.vouchesOf 10)).isSome = true ∧
      CanVote ((start.play executedVote).play secondLoan) [3] 3 ∧
      ¬ CountedAfresh ((start.play executedVote).play secondLoan) [3] 3 10 true := by
  have hclosed : (start.play executedVote).store.ballots.Closed 10 := closed_iff.2 (by decide +kernel)
  have hclosed' : ((start.play executedVote).play secondLoan).store.ballots.Closed 10 :=
    closed_run (run_play .nil secondLoan) hclosed
  refine ⟨?_, hclosed, by decide +kernel, by decide +kernel,
    canVote_of (by decide) (by decide) (by decide +kernel), ?_⟩
  · exact ⟨_, ((History.genesis sampleWorld sampleBank).play executedVote).play secondLoan⟩
  · rintro ⟨t, vote, hexec, -⟩
    exact (ballots_of hexec).open hclosed'

/-! ## What a decision binds -/

/-- A vote on the borrower is open, or a slash of the borrower is pending. -/
def Ballots.Live (x : Ballots) (b : Address) : Prop :=
  (∃ v, x.slashVote b = some v ∧ v.executed = false) ∨ ∃ p, x.pendingSlash b = some p ∧ p.executed = false

/-- The call counted a vote to slash `b`, or created the pending slash of `b`. -/
def Decides (b : Address) (s : State) (c : Call) (t : Store) : Prop :=
  ∃ voter approve, c.op = .voteSlash voter b approve ∧
    (approve = true ∧ s.store.ballots.resolveVoteDelegation voter = voter ∨
      t.ballots.pendingSlash b ≠ s.store.ballots.pendingSlash b)

/-- In the history, such a call was made in the state `s'`. -/
def DecidedIn (h : List (State × Move)) (b : Address) (s' : State) : Prop :=
  ∃ c t, (s', .call c) ∈ h ∧ exec c s' = .ok t ∧ Decides b s' c t

/-- Whenever the history executes a slash of a borrower, all that led to it
happened while the loan it slashes was the borrower's active loan. -/
def DecisionsBind (h : List (State × Move)) : Prop :=
  ∀ post s c pre, h = post ++ (s, .call c) :: pre → (∃ t, exec c s = .ok t) → ∀ b, c.op.executes = some b →
    ∀ s', DecidedIn pre b s' → s'.store.book.activeLoan b = s.store.book.activeLoan b

/-- No loan is issued to a borrower while a vote or a slash is open on it. -/
def Op.opensClean (x : Ballots) (op : Op) : Prop :=
  ∀ b ∈ op.issuesTo, ¬ x.Live b

theorem BallotEffect.not_vote {s : Store} {op : Op} {x : Ballots} (he : BallotEffect s op x)
    (hop : ∀ voter approve, op ≠ .voteSlash voter b approve) :
    (x.slashVote b = none → s.ballots.slashVote b = none) ∧
      (s.ballots.pendingSlash b = none → x.pendingSlash b = none) ∧ (x.Live b → s.ballots.Live b) := by
  cases he with
  | kept _ | delegated | revoked | deferred _ _ => exact ⟨id, id, id⟩
  | @counted voter borrower approve vote loan _ _ _ =>
    have hb : b ≠ borrower := fun h => hop voter approve (h ▸ rfl)
    simp [Ballots.Live, hb]
  | @decided voter borrower approve vote pending loan _ _ _ _ =>
    have hb : b ≠ borrower := fun h => hop voter approve (h ▸ rfl)
    simp [Ballots.Live, hb]
  | @executedVote borrower vote hv hopen =>
    by_cases hb : b = borrower
    · subst hb
      refine ⟨fun h => by simp at h, id, fun _ => .inl ⟨vote, hv, hopen⟩⟩
    · simp [Ballots.Live, hb]
  | @executedPending borrower pending hp hopen =>
    by_cases hb : b = borrower
    · subst hb
      refine ⟨id, fun h => ?_, fun _ => .inr ⟨pending, hp, hopen⟩⟩
      rw [hp] at h
      cases h
    · simp [Ballots.Live, hb]

theorem decidedIn_cons {m : Move} {s' : State} :
    DecidedIn ((s, m) :: h) b s' ↔
      DecidedIn h b s' ∨ s' = s ∧ ∃ c t, m = .call c ∧ exec c s = .ok t ∧ Decides b s c t := by
  constructor
  · rintro ⟨c, t, hmem, hexec, hdec⟩
    rcases List.mem_cons.1 hmem with heq | hmem
    · cases heq
      exact .inr ⟨rfl, c, t, rfl, hexec, hdec⟩
    · exact .inl ⟨c, t, hmem, hexec, hdec⟩
  · rintro (⟨c, t, hmem, hexec, hdec⟩ | ⟨rfl, c, t, rfl, hexec, hdec⟩)
    · exact ⟨c, t, List.mem_cons_of_mem _ hmem, hexec, hdec⟩
    · exact ⟨c, t, List.mem_cons_self, hexec, hdec⟩

/-- A borrower nobody voted on has no pending slash; and while a vote or slash is
open, the borrower's active loan is the one it was opened on, or gone. -/
structure Bound (h : List (State × Move)) (s : State) (b : Address) : Prop where
  untouched : s.store.ballots.slashVote b = none → s.store.ballots.pendingSlash b = none ∧ ∀ s', ¬ DecidedIn h b s'
  loan : s.store.ballots.Live b → ∀ s', DecidedIn h b s' →
    s.store.book.activeLoan b = none ∨ s.store.book.activeLoan b = s'.store.book.activeLoan b

/-- A step that decides nothing about the borrower, and opens nothing. -/
theorem Bound.undecided {s' : State} {m : Move} (hi : Bound h s b)
    (hm : ∀ s'', DecidedIn ((s, m) :: h) b s'' → DecidedIn h b s'')
    (hvote : s'.store.ballots.slashVote b = none → s.store.ballots.slashVote b = none)
    (hpending : s.store.ballots.pendingSlash b = none → s'.store.ballots.pendingSlash b = none)
    (hlive : s'.store.ballots.Live b → s.store.ballots.Live b)
    (hptr : s.store.ballots.Live b → s'.store.book.activeLoan b = s.store.book.activeLoan b ∨ s'.store.book.activeLoan b = none) :
    Bound ((s, m) :: h) s' b := by
  refine ⟨fun hn => ?_, fun hl s'' hd => ?_⟩
  · obtain ⟨hp, hnone⟩ := hi.untouched (hvote hn)
    exact ⟨hpending hp, fun s'' hd => hnone s'' (hm s'' hd)⟩
  · rcases hptr (hlive hl) with hsame | hgone
    · rw [hsame]
      exact hi.loan (hlive hl) s'' (hm s'' hd)
    · exact .inl hgone

/-- A vote counted on the borrower, whose book it leaves as it was. -/
theorem Bound.counted {s' : State} {m : Move} (hi : Bound h s b)
    (hopen : ∀ v, s.store.ballots.slashVote b = some v → v.executed = false)
    (hset : s'.store.ballots.slashVote b ≠ none) (hbook : s'.store.book = s.store.book) : Bound ((s, m) :: h) s' b := by
  refine ⟨fun hn => absurd hn hset, fun _ s'' hd => ?_⟩
  rw [hbook]
  rcases decidedIn_cons.1 hd with hd | ⟨rfl, -⟩
  · -- something was decided before, so the vote was open already
    have hlive : s.store.ballots.Live b := by
      cases hv : s.store.ballots.slashVote b with
      | none => exact absurd hd ((hi.untouched hv).2 s'')
      | some v => exact .inl ⟨v, hv, hopen v hv⟩
    exact hi.loan hlive s'' hd
  · exact .inr rfl

/-- A vote keeps the book. -/
theorem voteSlash_book {w : World} {k k' : LoanBook} (he : Effect w k (.voteSlash voter b approve) k') : k' = k := by
  cases he with
  | looked _ => rfl

theorem Bound.vote {c : Call} {t : Store} (hi : Bound h s b) (hop : c.op = .voteSlash voter b approve)
    (hexec : exec c s = .ok t) : Bound ((s, .call c) :: h) { s with store := t } b := by
  have hbook : t.book = s.store.book := voteSlash_book (hop ▸ effect_of hexec)
  have he : BallotEffect s.store (.voteSlash voter b approve) t.ballots := hop ▸ ballots_of hexec
  generalize hx : t.ballots = x at he
  cases he with
  | kept hvotes => cases hvotes
  | deferred _ hdefer =>
    have hm : ∀ s'', DecidedIn ((s, .call c) :: h) b s'' → DecidedIn h b s'' := by
      intro s'' hd
      refine (decidedIn_cons.1 hd).resolve_right ?_
      rintro ⟨rfl, c', t', hc, hexec', voter', approve', hop', hdec⟩
      cases hc
      rw [hexec] at hexec'
      cases hexec'
      rw [hop] at hop'
      cases hop'
      rcases hdec with ⟨-, hself⟩ | hpending
      · exact hdefer hself
      · exact hpending (by rw [hx])
    exact hi.undecided hm (fun hn => by rwa [← hx]) (fun hn => by rwa [hx]) (fun hl => by rwa [← hx])
      fun _ => .inl (by rw [hbook])
  | counted hopen _ _ => exact hi.counted hopen (by simp [hx]) hbook
  | decided hopen _ _ _ => exact hi.counted hopen (by simp [hx]) hbook

theorem Bound.call {c : Call} {t : Store} (hi : Bound h s b) (hexec : exec c s = .ok t)
    (hop : c.op.opensClean s.store.ballots) : Bound ((s, .call c) :: h) { s with store := t } b := by
  by_cases hvote : ∃ voter approve, c.op = .voteSlash voter b approve
  · obtain ⟨voter, approve, hvote⟩ := hvote
    exact hi.vote hvote hexec
  · have hother : ∀ voter approve, c.op ≠ .voteSlash voter b approve := fun voter approve h => hvote ⟨voter, approve, h⟩
    obtain ⟨hn, hp, hl⟩ := (ballots_of hexec).not_vote hother
    refine hi.undecided (fun s'' hd => ?_) hn hp hl fun hlive => ?_
    · refine (decidedIn_cons.1 hd).resolve_right ?_
      rintro ⟨-, c', t', hc, -, voter, approve, hop', -⟩
      cases hc
      exact hother voter approve hop'
    · exact LoanBook.pointer_effect (effect_of hexec) fun hb => hop b hb hlive

/-- A step that is not a call going through decides nothing. -/
theorem not_decided {s'' : State} {m : Move} (hm : ∀ c t, m = .call c → exec c s ≠ .ok t)
    (hd : DecidedIn ((s, m) :: h) b s'') : DecidedIn h b s'' := by
  refine (decidedIn_cons.1 hd).resolve_right ?_
  rintro ⟨-, c, t, hc, hexec, -⟩
  exact hm c t hc hexec

theorem History.bound {h s} (hr : History h s)
    (hok : Along (WhenDone fun s op => op.opensClean s.store.ballots) h) (b : Address) : Bound h s b := by
  refine History.inv (I := fun h s => Bound h s b) (fun _ _ => ?_) (fun {h s c t} _ hi hd hop => hi.call hd hop)
    (fun {h s c e} hi he => ?_) (fun {h s world access bank} hi _ _ => ?_) hr hok
  · have hnone : ∀ s', ¬ DecidedIn [] b s' := by
      rintro s' ⟨c, t, hmem, -⟩
      cases hmem
    exact ⟨fun _ => ⟨rfl, hnone⟩, fun _ s' hd => absurd hd (hnone s')⟩
  · refine hi.undecided (fun s'' hd => not_decided (fun c' t hc => ?_) hd) id id id fun _ => .inl rfl
    cases hc
    rw [he]
    nofun
  · refine hi.undecided (fun s'' hd => not_decided (fun c t hc => ?_) hd) id id id fun _ => .inl rfl
    cases hc

/-- What executes a slash finds its vote or its pending slash open. -/
theorem executes_live {c : Call} {t : Store} (h : exec c s = .ok t) (hop : c.op.executes = some b) :
    s.store.ballots.Live b ∧ s.store.book.activeLoan b ≠ none := by
  have hptr : ∀ {k : LoanBook} {loan}, k.getActiveLoanRecord b = some loan → k.activeLoan b ≠ none := by
    intro k loan hloan hnone
    rw [LoanBook.getActiveLoanRecord, hnone] at hloan
    cases hloan
  have he := effect_of h
  have hb := ballots_of h
  generalize c.op = op at hop he hb
  generalize t.book = k' at he
  generalize t.ballots = x at hb
  cases op with
  | executeSlashVote b' =>
    cases hop
    cases he with
    | looked honly => cases honly
    | executedVote ho _ =>
      refine ⟨?_, hptr ho⟩
      cases hb with
      | kept hvotes => cases hvotes
      | executedVote hv hopen => exact .inl ⟨_, hv, hopen⟩
  | executePendingSlash b' =>
    cases hop
    cases he with
    | looked honly => cases honly
    | executedPending ho _ =>
      refine ⟨?_, hptr ho⟩
      cases hb with
      | kept hvotes => cases hvotes
      | executedPending hp hopen => exact .inr ⟨_, hp, hopen⟩
  | _ => cases hop

/-- In every run in which no loan is issued while a vote or slash is open on its
borrower, a decision to slash binds only the loan it was taken on. -/
theorem decisions_bind {h s} (hr : History h s)
    (hok : Along (WhenDone fun s op => op.opensClean s.store.ballots) h) : DecisionsBind h := by
  rintro post s₁ c pre rfl ⟨t, hexec⟩ b hop s' hd
  obtain ⟨world, bank, hr⟩ := hr
  have hpre : History pre s₁ := ⟨world, bank, (Run.split hr).1⟩
  have hokpre : Along (WhenDone fun s op => op.opensClean s.store.ballots) pre :=
    fun e he => hok e (List.mem_append_right _ (List.mem_cons_of_mem _ he))
  obtain ⟨hlive, hptr⟩ := executes_live hexec hop
  exact ((hpre.bound hokpre b).loan hlive s' hd).resolve_left hptr |>.symm

theorem not_live {x : Ballots} (hv : x.slashVote b = none) (hp : x.pendingSlash b = none) : ¬ x.Live b := by
  simp [Ballots.Live, hv, hp]

/-- Accounts 2 and 4 back a loan to account 10. -/
def firstLoan : List Act :=
  [.call [2] (.vouch 2 10 1000000 100 0), .call [4] (.vouch 4 10 1000000 100 0),
    .call [1] (.initializeLoanCovenants 1 10000 10000 31536000), .call [1] (.createLoanPool [1] [10] [500000])]

/-- Account 2 votes to slash it; it is repaid, and account 3 backs another. -/
def anotherLoan : List Act :=
  [.call [2] (.voteSlash 2 10 true), .call [10] (.repay 10 510000), .call [3] (.vouch 3 10 1000000 100 0),
    .call [1] (.createLoanPool [1] [10] [500000])]

theorem decisions_bind_executed :
    DecisionsBind (start.trace [] (poolLoan ++
      [.call [2] (.voteSlash 2 10 true), .call [2] (.executePendingSlash 10)])) := by
  refine decisions_bind ((History.genesis sampleWorld sampleBank).play _) ?_
  refine List.forall_mem_cons.2 ⟨fun _ b hb => (List.not_mem_nil hb).elim, ?_⟩
  refine List.forall_mem_cons.2 ⟨fun _ b hb => (List.not_mem_nil hb).elim, ?_⟩
  refine List.forall_mem_cons.2 ⟨fun _ b hb => ?_, ?_⟩
  · rw [List.mem_singleton.1 hb]
    exact not_live (by decide +kernel) (by decide +kernel)
  · exact List.forall_mem_cons.2 ⟨fun _ b hb => (List.not_mem_nil hb).elim, List.forall_mem_nil _⟩

/-- The vote on the repaid loan slashes the vouchers of the next. -/
theorem vote_outlives_loan :
    History (((start.play firstLoan).play anotherLoan, .call ⟨[2], .executeSlashVote 10⟩) ::
        (start.play firstLoan).trace (start.trace [] firstLoan) anotherLoan)
      (((start.play firstLoan).play anotherLoan).after ⟨[2], .executeSlashVote 10⟩) ∧
    exec ⟨[2], .executeSlashVote 10⟩ ((start.play firstLoan).play anotherLoan) =
        .ok (((start.play firstLoan).play anotherLoan).after ⟨[2], .executeSlashVote 10⟩).store ∧
      ¬ DecisionsBind (((start.play firstLoan).play anotherLoan, .call ⟨[2], .executeSlashVote 10⟩) ::
        (start.play firstLoan).trace (start.trace [] firstLoan) anotherLoan) := by
  have hexec : exec ⟨[2], .executeSlashVote 10⟩ ((start.play firstLoan).play anotherLoan) =
      .ok (((start.play firstLoan).play anotherLoan).after ⟨[2], .executeSlashVote 10⟩).store :=
    exec_after (by decide +kernel)
  have hr := ((History.genesis sampleWorld sampleBank).play firstLoan).play anotherLoan
  refine ⟨hr.step (Step.after _ _), hexec, fun h => ?_⟩
  have hvote : exec ⟨[2], .voteSlash 2 10 true⟩ (start.play firstLoan) =
      .ok ((start.play firstLoan).after ⟨[2], .voteSlash 2 10 true⟩).store := exec_after (by decide +kernel)
  have hself : (start.play firstLoan).store.ballots.resolveVoteDelegation 2 = 2 := by decide +kernel
  have hdecided : DecidedIn ((start.play firstLoan).trace (start.trace [] firstLoan) anotherLoan) 10
      (start.play firstLoan) :=
    ⟨_, _, first_mem_trace _ _ _ _ _, hvote, 2, true, rfl, .inl ⟨rfl, hself⟩⟩
  have hsame := h [] _ _ _ rfl ⟨_, hexec⟩ 10 rfl _ hdecided
  revert hsame
  decide +kernel

end QuorumCredit
