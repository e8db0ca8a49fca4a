import QuorumCredit.Appeals
import QuorumCredit.Moves
import QuorumCredit.Settlement
import QuorumCredit.Host.Run
/-!
# The contract as a system

Every entry point the claims speak of as one `Op`, a signed `Call` of one, and
the steps the system takes: a call that goes through, a call that is refused and
leaves no trace, and whatever happens elsewhere (time passing, administration,
token transfers between other accounts), which touches no loan, vote or vouch.
A run of the system starts from a contract that has just been initialised, and a
script is one run written down.
-/

open Host

namespace QuorumCredit

inductive Op where
  | vouch (voucher borrower : Address) (stake : Int) (token : Address) (chainId : Nat)
  | increaseStake (voucher borrower : Address) (additional : Int)
  | decreaseStake (voucher borrower : Address) (amount : Int)
  | withdrawVouch (voucher borrower : Address)
  | requestWithdrawal (voucher borrower : Address) (priorityFee : Int)
  | requestLoan (borrower : Address) (amount threshold : Int) (loanPurpose : String) (token : Address)
  | repay (borrower : Address) (payment : Int)
  | repayPartial (borrower : Address) (payment : Int) (token : Address)
  | refinanceLoan (borrower : Address) (newAmount newThreshold : Int) (newToken : Address)
  | createLoanPool (adminSigners borrowers : List Address) (amounts : List Int)
  | slash (adminSigners : List Address) (borrower : Address)
  | autoSlash (borrower : Address)
  | claimExpiredLoan (borrower : Address)
  | delegateVote (voucher delegate : Address)
  | revokeVoteDelegation (voucher : Address)
  | voteSlash (voter borrower : Address) (approve : Bool)
  | executeSlashVote (borrower : Address)
  | executePendingSlash (borrower : Address)
  | getLoan (borrower : Address)
  | getLoanById (loanId : Nat)
  | checkAllDefaults (borrower : Address)
  | initializeLoanCovenants (loanId ltvRatioBps dtiRatioBps monitoringPeriodSecs : Nat)
  | batchVouch (voucher : Address) (borrowers : List Address) (stakes : List Int) (token : Address)
      (chainId : Option Nat)
  | partialWithdraw (voucher borrower : Address)
  | transferVouch (src dst borrower : Address)
  | splitVouch (voucher borrower newVoucher : Address) (amountToSplit : Int)
  | rotateToNewBorrower (voucher oldBorrower newBorrower : Address)
  | reverseSlash (adminSigners : List Address) (slashId : Nat) (reason : String)
  | releaseSlashEscrow (adminSigners : List Address) (borrower : Address)
  | slashTreasury (adminSigners : List Address) (recipient : Address)
  | withdrawSlashTreasury (adminSigners : List Address) (recipient : Address) (amount : Int)
  | appealSlash (borrower : Address)
  | voteAppeal (voter borrower : Address) (approve : Bool)
  | finalizeAppeal (borrower : Address)
deriving DecidableEq, Repr

/-- Runs `x` for its effect. -/
def discard {σ α : Type} (x : Contract σ α) : Contract σ Unit := do
  let _ ← x

/-- The function behind each entry point. -/
def dispatch : Op → Contract Store Unit
  | .vouch voucher borrower stake token chainId => vouch voucher borrower stake token chainId
  | .increaseStake voucher borrower additional => increaseStake voucher borrower additional
  | .decreaseStake voucher borrower amount => decreaseStake voucher borrower amount
  | .withdrawVouch voucher borrower => withdrawVouch voucher borrower
  | .requestWithdrawal voucher borrower fee => requestWithdrawal voucher borrower fee
  | .requestLoan borrower amount threshold purpose token => requestLoan borrower amount threshold purpose token
  | .repay borrower payment => repay borrower payment
  | .repayPartial borrower payment token => repayPartial borrower payment token
  | .refinanceLoan borrower amount threshold token => refinanceLoan borrower amount threshold token
  | .createLoanPool signers borrowers amounts => discard (createLoanPool signers borrowers amounts)
  | .slash signers borrower => slash signers borrower
  | .autoSlash borrower => autoSlash borrower
  | .claimExpiredLoan borrower => claimExpiredLoan borrower
  | .delegateVote voucher delegate => delegateVote voucher delegate
  | .revokeVoteDelegation voucher => revokeVoteDelegation voucher
  | .voteSlash voter borrower approve => discard (voteSlash voter borrower approve)
  | .executeSlashVote borrower => executeSlashVote borrower
  | .executePendingSlash borrower => executePendingSlash borrower
  | .getLoan borrower => discard (zoom (getLoan borrower))
  | .getLoanById loanId => discard (zoom (getLoanById loanId))
  | .checkAllDefaults borrower => discard (zoom (checkAllDefaultsForBorrower borrower))
  | .initializeLoanCovenants loanId ltv dti period => zoom (initializeLoanCovenants loanId ltv dti period)
  | .batchVouch voucher borrowers stakes token chainId => discard (batchVouch voucher borrowers stakes token chainId)
  | .partialWithdraw voucher borrower => partialWithdraw voucher borrower
  | .transferVouch src dst borrower => transferVouch src dst borrower
  | .splitVouch voucher borrower newVoucher amount => discard (splitVouch voucher borrower newVoucher amount)
  | .rotateToNewBorrower voucher oldBorrower newBorrower => rotateToNewBorrower voucher oldBorrower newBorrower
  | .reverseSlash signers slashId reason => reverseSlash signers slashId reason
  | .releaseSlashEscrow signers borrower => releaseSlashEscrow signers borrower
  | .slashTreasury signers recipient => slashTreasury signers recipient
  | .withdrawSlashTreasury signers recipient amount => withdrawSlashTreasury signers recipient amount
  | .appealSlash borrower => appealSlash borrower
  | .voteAppeal voter borrower approve => voteAppeal voter borrower approve
  | .finalizeAppeal borrower => finalizeAppeal borrower

/-- An entry point called with the signatures of `signers`. -/
structure Call where
  signers : List Address
  op : Op
deriving DecidableEq, Repr

structure State where
  world : World
  store : Store

def State.context (s : State) (c : Call) : Context := { s.world with signers := c.signers }

/-- What the call does in `s`: the storage after it, or why it is refused. -/
def exec (c : Call) (s : State) : Except Failure Store :=
  match dispatch c.op (s.context c) s.store with
  | .ok (_, t) => .ok t
  | .error e => .error e

variable {s : State} {h : List (State × Move)}

/-- What every successful run of the function behind the call ends in, the call ends in. -/
theorem yields_exec {c : Call} {t : Store} {Q : Unit → Store → Prop}
    (hq : Yields (dispatch c.op) (s.context c) s.store Q) (h : exec c s = .ok t) : Q () t := by
  unfold exec at h
  split at h
  case h_1 u t' hrun =>
    cases h
    exact hq u _ hrun
  case h_2 => cases h

/-- The state after the call; a refused call changes nothing. -/
def State.after (s : State) (c : Call) : State :=
  match exec c s with
  | .ok t => { s with store := t }
  | .error _ => s

/-! ## Steps -/

/-- What a step is: a call, or something elsewhere that may change the world,
the guards' own storage and token balances. -/
inductive Move where
  | call (c : Call)
  | elsewhere (world : World) (access : Access) (bank : Ledger)

inductive Step : State → Move → State → Prop
  | done {s c t} : exec c s = .ok t → Step s (.call c) { s with store := t }
  | refused {s c e} : exec c s = .error e → Step s (.call c) s
  | elsewhere {s world access bank} : s.world.now ≤ world.now → world.contract = s.world.contract →
      Step s (.elsewhere world access bank)
        { world, store := { s.store with access, vault := { s.store.vault with bank } } }

/-! ## The initial state -/

def LoanBook.empty : LoanBook :=
  { loan := fun _ => none, activeLoan := fun _ => none, latestLoan := fun _ => none, loanCounter := 0
    borrowerLoanIds := fun _ => [], defaultCount := fun _ => 0, repaymentCount := fun _ => 0
    totalDefaultCount := 0, totalActiveLoans := 0, totalValueLocked := 0 }

def Ballots.empty : Ballots :=
  { slashVote := fun _ => none, pendingSlash := fun _ => none, voteDelegation := fun _ => none }

def Vouching.empty : Vouching :=
  { vouches := fun _ => none, withdrawalQueue := fun _ => [], voucherStats := fun _ => none
    voucherHistory := fun _ => [], voucherRegistry := [], lastVouchTimestamp := fun _ => 0
    lastRotationTimestamp := fun _ => none, rotationBonusBps := fun _ => 0, rotationCount := fun _ => 0
    vouchSplitHistory := fun _ => []
    weightedStakeCache := fun _ _ => none, yieldCache := fun _ _ => none }

def Access.open : Access :=
  { locked := false, pauseMode := .none, paused := false, thawState := none, rateLimit := fun _ => (0, 0)
    borrowerList := [], circuitBreakerLastTriggered := 0, circuitBreakerHistory := []
    circuitBreakerAcknowledged := false }

def Terms.empty : Terms :=
  { yieldDistribution := fun _ => [], paymentHistory := fun _ => [], covenantConfig := fun _ => none
    covenantStatus := fun _ => none, covenantBreachCount := fun _ => 0, insuranceFund := 0
    insuranceFundLastContribution := 0, refinanceChainCount := fun _ => 0, lastRefinancedAt := fun _ => 0
    refinanceRecord := fun _ => none, refinanceStats := ⟨0, 0, 0⟩, loanPoolCounter := 0, loanPool := fun _ => none }

def Slashing.empty : Slashing :=
  { slashTreasury := 0, persistentTreasury := 0, lastSlashedAt := fun _ => none, slashEscrow := fun _ => none
    slashEscrowAppeal := fun _ => none, slashRecordCounter := 0
    slashRecord := fun _ => none, slashAudit := fun _ => none, slashesByMonth := fun _ => []
    loanAtBorrower := fun _ => none }

/-- The contract just after `initialize`, in a world with the given configuration and balances. -/
def genesis (world : World) (bank : Ledger) : State :=
  { world
    store :=
      { access := .open, book := .empty, ballots := .empty, vault := { bank, vouching := .empty }
        terms := .empty, slashing := .empty } }

/-- The history of the contract in some world, and the state it has reached. -/
def History (h : List (State × Move)) (s : State) : Prop :=
  ∃ world bank, Run Step (genesis world bank) h s

/-- The states the contract can be in. -/
def Reachable (s : State) : Prop := ∃ h, History h s

theorem History.step {h s m s'} (hr : History h s) (hst : Step s m s') : History ((s, m) :: h) s' := by
  obtain ⟨world, bank, hr⟩ := hr
  exact ⟨world, bank, hr.snoc hst⟩

theorem Step.after (s : State) (c : Call) : Step s (.call c) (s.after c) := by
  unfold State.after
  split
  case h_1 t h => exact .done h
  case h_2 e h => exact .refused h

theorem exec_after {c : Call} (h : (exec c s).toBool = true) : exec c s = .ok (s.after c).store := by
  unfold State.after
  cases he : exec c s with
  | ok t => rfl
  | error e => rw [he] at h; cases h

/-- On a step that is a call that goes through, `p` holds of the state it is made in. -/
def WhenDone (p : State → Op → Prop) (s : State) : Move → Prop
  | .call c => (∃ t, exec c s = .ok t) → p s c.op
  | .elsewhere .. => True

/-- Induction over a history: an invariant of the calls that go through under
`p`, of the refused ones and of whatever happens elsewhere. Both may speak of the
history. -/
theorem History.inv_throughout {p : List (State × Move) → State → Op → Prop} {I : List (State × Move) → State → Prop}
    (h0 : ∀ world bank, I [] (genesis world bank))
    (hdone : ∀ {h s c t}, History h s → I h s → exec c s = .ok t → p h s c.op →
      I ((s, .call c) :: h) { s with store := t })
    (hrefused : ∀ {h s c e}, I h s → exec c s = .error e → I ((s, .call c) :: h) s)
    (helse : ∀ {h s world access bank}, I h s → s.world.now ≤ world.now → world.contract = s.world.contract →
      I ((s, .elsewhere world access bank) :: h)
        { world, store := { s.store with access, vault := { s.store.vault with bank } } })
    {h s} (hr : History h s) (hok : Throughout (fun h => WhenDone (p h)) h) : I h s := by
  obtain ⟨world, bank, hr⟩ := hr
  refine Run.inv_throughout (fun h => WhenDone (p h)) I (h0 world bank) (fun h s m s' hr hi hm hst => ?_) hr hok
  cases hst with
  | done hd => exact hdone ⟨world, bank, hr⟩ hi hd (hm ⟨_, hd⟩)
  | refused he => exact hrefused hi he
  | elsewhere hnow hcontract => exact helse hi hnow hcontract

/-- The same where `p` looks at no history. -/
theorem History.inv {p : State → Op → Prop} {I : List (State × Move) → State → Prop}
    (h0 : ∀ world bank, I [] (genesis world bank))
    (hdone : ∀ {h s c t}, History h s → I h s → exec c s = .ok t → p s c.op →
      I ((s, .call c) :: h) { s with store := t })
    (hrefused : ∀ {h s c e}, I h s → exec c s = .error e → I ((s, .call c) :: h) s)
    (helse : ∀ {h s world access bank}, I h s → s.world.now ≤ world.now → world.contract = s.world.contract →
      I ((s, .elsewhere world access bank) :: h)
        { world, store := { s.store with access, vault := { s.store.vault with bank } } })
    {h s} (hr : History h s) (hok : Along (WhenDone p) h) : I h s :=
  History.inv_throughout (p := fun _ => p) h0 hdone hrefused helse hr hok.throughout

/-- What an entry of the history did: the call that went through, and the storage it left. -/
def done : State × Move → Option (Op × Store)
  | (s, .call c) =>
    match exec c s with
    | .ok t => some (c.op, t)
    | .error _ => none
  | (_, .elsewhere ..) => none

theorem done_ok {c : Call} {t : Store} (h : exec c s = .ok t) : done (s, .call c) = some (c.op, t) := by
  simp only [done, h]

theorem done_error {c : Call} {e : Failure} (h : exec c s = .error e) : done (s, .call c) = none := by
  simp only [done, h]

/-! ## Scripts -/

/-- One line of a script: a call, or time passing. -/
inductive Act where
  | call (signers : List Address) (op : Op)
  | wait (secs : Nat)

def State.wait (s : State) (secs : Nat) : State :=
  { s with world := { s.world with now := s.world.now + secs } }

def State.act (s : State) : Act → State
  | .call signers op => s.after ⟨signers, op⟩
  | .wait secs => s.wait secs

def Act.move (s : State) : Act → Move
  | .call signers op => .call ⟨signers, op⟩
  | .wait secs => .elsewhere (s.wait secs).world s.store.access s.store.vault.bank

/-- The state a script ends in. -/
def State.play (s : State) : List Act → State
  | [] => s
  | a :: as => (s.act a).play as

/-- The history of a script, added to `h`. -/
def State.trace (s : State) (h : List (State × Move)) : List Act → List (State × Move)
  | [] => h
  | a :: as => (s.act a).trace ((s, a.move s) :: h) as

theorem Step.act (s : State) (a : Act) : Step s (a.move s) (s.act a) := by
  cases a with
  | call signers op => exact Step.after s ⟨signers, op⟩
  | wait secs => exact .elsewhere (Nat.le_add_right _ _) rfl

theorem mem_trace {e : State × Move} (he : e ∈ h) (as : List Act) : e ∈ s.trace h as := by
  induction as generalizing s h with
  | nil => exact he
  | cons a as ih => exact ih (List.mem_cons_of_mem _ he)

theorem first_mem_trace (s : State) (h : List (State × Move)) (signers : List Address) (op : Op) (as : List Act) :
    (s, Move.call ⟨signers, op⟩) ∈ s.trace h (.call signers op :: as) := mem_trace List.mem_cons_self as

/-- A call in the history of a script is one of its lines. -/
theorem act_of_mem_trace {as : List Act} {t : State} {c : Call} (hmem : (t, Move.call c) ∈ s.trace h as) :
    (t, Move.call c) ∈ h ∨ .call c.signers c.op ∈ as := by
  induction as generalizing s h with
  | nil => exact .inl hmem
  | cons a as ih =>
    rcases ih hmem with hmem | ha
    · rcases List.mem_cons.1 hmem with he | hmem
      · cases a with
        | call signers op =>
          obtain ⟨-, hc⟩ := Prod.mk.inj he
          obtain rfl := Move.call.inj hc
          exact .inr List.mem_cons_self
        | wait secs => exact nomatch (Prod.mk.inj he).2
      · exact .inl hmem
    · exact .inr (List.mem_cons_of_mem _ ha)

theorem run_play {s₀ : State} (hr : Run Step s₀ h s) (as : List Act) : Run Step s₀ (s.trace h as) (s.play as) := by
  induction as generalizing h s with
  | nil => exact hr
  | cons a as ih => exact ih (hr.snoc (Step.act s a))

theorem History.play {h s} (hr : History h s) (as : List Act) : History (s.trace h as) (s.play as) := by
  obtain ⟨world, bank, hr⟩ := hr
  exact ⟨world, bank, run_play hr as⟩

/-- What holds of every line of the script, wherever it is run. -/
theorem throughout_trace (ok : List (State × Move) → State → Move → Prop) (hok : Throughout ok h) {as : List Act}
    (has : ∀ a ∈ as, ∀ h s, ok h s (a.move s)) : Throughout ok (s.trace h as) := by
  induction as generalizing s h with
  | nil => exact hok
  | cons a as ih =>
    rw [List.forall_mem_cons] at has
    exact ih ⟨hok, has.1 h s⟩ has.2

theorem along_trace (ok : State → Move → Prop) (hok : Along ok h) {as : List Act}
    (has : ∀ a ∈ as, ∀ s, ok s (a.move s)) : Along ok (s.trace h as) := by
  induction as generalizing s h with
  | nil => exact hok
  | cons a as ih =>
    rw [List.forall_mem_cons] at has
    exact ih (List.forall_mem_cons.2 ⟨has.1 s, hok⟩) has.2

/-- Scripts do not change the configuration. -/
theorem along_trace_config {P : Config → Prop} (hok : Along (fun s _ => P s.world.config) h) (hs : P s.world.config)
    (as : List Act) : Along (fun s _ => P s.world.config) (s.trace h as) ∧ P (s.play as).world.config := by
  induction as generalizing s h with
  | nil => exact ⟨hok, hs⟩
  | cons a as ih =>
    refine ih (List.forall_mem_cons.2 ⟨hs, hok⟩) ?_
    cases a with
    | call signers op =>
      simp only [State.act, State.after]
      split
      · exact hs
      · exact hs
    | wait secs => exact hs

theorem History.genesis (world : World) (bank : Ledger) : History [] (genesis world bank) :=
  ⟨world, bank, .nil⟩

theorem Reachable.script (world : World) (bank : Ledger) (as : List Act) :
    Reachable ((QuorumCredit.genesis world bank).play as) :=
  ⟨_, (History.genesis world bank).play as⟩

/-! ### A world to run scripts in -/

/-- Administered by account 1, in token 100 with token 101 allowed. -/
def sampleConfig : Config :=
  { admins := [1], adminThreshold := 1, token := 100, allowedTokens := [101], yieldBps := 200, slashBps := 5000
    minLoanAmount := 100000, loanDuration := 2592000, maxLoanToStakeRatio := 150, maxLoanToCollateralRatio := 50000
    gracePeriod := 0, prepaymentPenaltyBps := 0, slashCooldownSeconds := 0, emergencyPauseEnabled := false
    slashDelaySeconds := 0, rateLimitConfig := ⟨0, 0, false⟩, recoveryPercentage := 0
    liquidityTierYieldBonus := [], maxPriorityFeeCapBps := 1000, defaultRateThreshold := 0
    insuranceFundPremiumBps := 0, maxRefinancesPerLoanChain := 0, refinanceCooldownSecs := 0 }

def sampleWorld : World :=
  { now := 1000000, contract := 0, config := sampleConfig, revokedAdmin := fun _ => false
    rolePermissions := fun _ => none, isZeroAddress := fun _ => false, vouchConfig := ⟨false, 0, 0, 50⟩
    blacklisted := fun _ => false, voucherWhitelist := fun _ => false, cooldownBypass := fun _ _ => false
    activeBridge := fun _ => false, tierYieldBonusBps := fun _ => none, tierMinStakeReductionBps := fun _ => none
    tokenLiquidityTier := fun _ => 0, prepaymentBonusBps := 0, reputationNft := none
    nftReturns := fun _ _ _ => true, slashVoteQuorum := none
    adminRole := fun a => if a = 1 then some .superAdmin else none, evidenceAppealPending := fun _ => false
    circuitBreakerCooldownSecs := 0, maxWithdrawalQueueSize := 50, thawDurationSecs := 0 }

/-- The world some time later, with nothing else changed. -/
def World.later (w : World) (secs : Nat) : World := { w with now := w.now + secs }

theorem sampleConfig_valid : sampleConfig.Valid := by
  constructor <;> decide

/-- Every account holds 10^9 of every token. -/
def sampleBank : Ledger := { balance := fun _ _ => 1000000000, log := [] }

/-- Where the scripts start. -/
def start : State := genesis sampleWorld sampleBank

theorem start_history (as : List Act) : History (start.trace [] as) (start.play as) :=
  (History.genesis sampleWorld sampleBank).play as

/-- The configuration is the same all along. -/
theorem start_valid (as : List Act) :
    Along (fun s _ => s.world.config.Valid) (start.trace [] as) ∧ (start.play as).world.config.Valid :=
  along_trace_config (P := Config.Valid) (List.forall_mem_nil _) sampleConfig_valid as

/-- Account 2 vouches for account 10, which is then issued a loan from a pool. -/
def poolLoan : List Act :=
  [.call [2] (.vouch 2 10 1000000 100 0), .call [1] (.createLoanPool [1] [10] [500000])]

/-- The administration slashes that loan. -/
def slashedLoan : List Act := poolLoan ++ [.call [1] (.slash [1] 10)]

/-- The same loan on request; the covenants of the loan to come are set up first. -/
def requestedLoan : List Act :=
  [.call [2] (.vouch 2 10 1000000 100 0), .call [1] (.initializeLoanCovenants 2 10000 10000 31536000),
    .call [10] (.requestLoan 10 500000 0 "stock" 100)]

end QuorumCredit
