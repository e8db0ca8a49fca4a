import QuorumCredit.Records
import QuorumCredit.Host.Staged
/-!
# Vouching with any token contract

`vouch` and `batch_vouch` over a token contract that may do anything but call
back: take more or less than it was asked to, or deliver less. An error in the
middle of `vouch` undoes the call. `batch_vouch` goes on after the error of an
entry, with whatever the entry has done by then. `Outcome` lists what an entry
may come to; with the standard's tokens a vouch is the one of the whole contract.
-/

open Host Function

namespace QuorumCredit

/-- A function whose error may be caught: what it did before the error stays. -/
abbrev Returning (σ : Type) := Staged Context Failure.returned σ

theorem returned_error (e : Failure) (c : ContractError) (h : Failure.returned e = some c) : Failure.error c = e := by
  cases e with
  | error c' => exact congrArg Failure.error (Option.some.inj h).symm
  | _ => cases h

instance : Staged.Uncaught Failure.returned .arithmetic := ⟨rfl⟩
instance : Staged.Uncaught Failure.returned .token := ⟨rfl⟩

/-- Looking at the borrower's loans always goes through. -/
instance (borrower : Address) : Staged.Firm Failure.returned (checkAllDefaultsForBorrower borrower) where
  out ctx k _ hc := by
    obtain ⟨count, hrun⟩ := checkAllDefaults_run borrower ctx k
    exact Staged.not_refuses_of_ok hrun hc

/-- What a call returns, if it goes through. -/
def result {σ α : Type} (x : Contract σ α) (ctx : Context) (s : σ) : Option α :=
  match x ctx s with
  | .ok (a, _) => some a
  | .error _ => none

/-- The storage a call leaves, if it goes through. -/
def left {σ α : Type} (x : Contract σ α) (ctx : Context) (s : σ) : σ :=
  match x ctx s with
  | .ok (_, t) => t
  | .error _ => s

theorem run_of_result {σ α : Type} {x : Contract σ α} {ctx : Context} {s : σ} {a : α} (h : result x ctx s = some a) :
    x ctx s = .ok (a, left x ctx s) := by
  unfold result at h
  unfold left
  cases hx : x ctx s with
  | ok p =>
    rw [hx] at h
    cases h
    rfl
  | error e =>
    rw [hx] at h
    cases h

namespace AnyToken

/-- Token contracts, seen from their callers. `balance` only reads; `transfer` traps or changes the
tokens' own state. -/
structure TokenContract (τ : Type) where
  balance : τ → Address → Address → Int
  transfer : τ → Address → Address → Address → Int → Option τ

/-- What vouching works on, with the state of the tokens. -/
structure VouchStore (τ : Type) where
  access : Access
  book : LoanBook
  vouching : Vouching
  tokens : τ

section

variable {τ : Type}

instance : Host.Part (VouchStore τ) Access where
  get := VouchStore.access
  set a s := { s with access := a }
instance : Host.Part (VouchStore τ) LoanBook where
  get := VouchStore.book
  set k s := { s with book := k }
instance : Host.Part (VouchStore τ) Vouching where
  get := VouchStore.vouching
  set x s := { s with vouching := x }
instance : Host.Part (VouchStore τ) τ where
  get := VouchStore.tokens
  set x s := { s with tokens := x }

end

/-! ## The calls -/

section

variable {τ : Type} (T : TokenContract τ)

def holding (token : Address) : Contract τ Int := do
  let ctx ← ask
  look (T.balance · token ctx.contract)

def transferIn (token src : Address) (amount : Int) : Contract τ Unit := do
  let ctx ← ask
  let tokens ← look id
  let tokens ← orFail (T.transfer tokens token src ctx.contract amount) .token
  alter fun _ => tokens

/-- The checks of `validate_vouch` after the borrower's defaults are marked. -/
def admitVouch (cfg : VouchConfig) (voucher borrower : Address) (stake : Int) (token : Address) (chainId : Option Nat) :
    Contract (VouchStore τ) (List VouchRecord) := do
  validateVoucher cfg voucher borrower stake token chainId
  let vouches ← requireRoom cfg voucher borrower token
  let book ← look (·.book)
  require (book.hasActiveLoan borrower = false) (.error .activeLoanExists)
  let balance ← look (T.balance ·.tokens token voucher)
  require (stake ≤ balance) (.error .insufficientVoucherBalance)
  return vouches

def validateVouch (cfg : VouchConfig) (voucher borrower : Address) (stake : Int) (token : Address)
    (chainId : Option Nat) : Returning (VouchStore τ) (List VouchRecord) := do
  validateBorrower voucher borrower stake
  let _ ← checkAllDefaultsForBorrower borrower
  admitVouch T cfg voucher borrower stake token chainId

/-- The record, and the marks of a new vouch. -/
def recordVouch (voucher borrower : Address) (stake : Int) (token : Address) (vouches : List VouchRecord)
    (chainId : Option Nat) : Contract Vouching Unit := do
  let ctx ← ask
  let record : VouchRecord :=
    { voucher, stake, vouchTimestamp := ctx.now, token, expiryTimestamp := none, delegate := none, chainId }
  alter fun x =>
    { (x.setVouches borrower (vouches ++ [record])).invalidateWeightedStakeCache borrower token with
      voucherHistory := update x.voucherHistory voucher (x.voucherHistory voucher ++ [borrower])
      voucherRegistry :=
        if voucher ∈ x.voucherRegistry then x.voucherRegistry else x.voucherRegistry ++ [voucher]
      lastVouchTimestamp := update x.lastVouchTimestamp voucher ctx.now }

/-- What has arrived is checked after the transfer. -/
def requireReceived (before after stake : Int) : Contract (VouchStore τ) Unit := do
  let received ← i128 (.error .stakeOverflow) (after - before)
  require (received = stake) (.error .insufficientFunds)

def commitVouch (voucher borrower : Address) (stake : Int) (token : Address) (vouches : List VouchRecord)
    (chainId : Option Nat) : Returning (VouchStore τ) Unit := do
  let before ← holding T token
  transferIn T token voucher stake
  let after ← holding T token
  (requireReceived before after stake : Contract (VouchStore τ) Unit)
  recordVouch voucher borrower stake token vouches chainId

def doVouch (cfg : VouchConfig) (voucher borrower : Address) (stake : Int) (token : Address)
    (chainId : Option Nat) : Returning (VouchStore τ) Unit := do
  checkRateLimit voucher
  registerBorrowerIfNeeded borrower
  let vouches ← validateVouch T cfg voucher borrower stake token chainId
  commitVouch T voucher borrower stake token vouches chainId

def vouchWithChain (voucher borrower : Address) (stake : Int) (token : Address) (chainId : Nat) :
    Returning (VouchStore τ) Unit := do
  let ctx ← (ask : Contract (VouchStore τ) Context)
  (requireAuth voucher : Contract (VouchStore τ) Unit)
  requireNotThawing
  validateBridge (chainOf chainId)
  doVouch T ctx.vouchConfig voucher borrower stake token (chainOf chainId)

/-- The entry point: an error undoes the call. -/
def vouch (voucher borrower : Address) (stake : Int) (token : Address) (chainId : Option Nat) :
    Contract (VouchStore τ) Unit :=
  (vouchWithChain T voucher borrower stake token (chainId.getD 0)).settle .error

/-- One entry of the batch. The vouches are read anew, so an earlier entry for the same borrower is seen. -/
def batchEntry (cfg : VouchConfig) (voucher token : Address) (chainId : Option Nat) (entry : Address × Int) :
    Contract (VouchStore τ) BatchVouchResult := do
  match ← (validateVouch T cfg voucher entry.1 entry.2 token chainId).run with
  | .error e => return { borrower := entry.1, stake := entry.2, success := false, error := some e }
  | .ok _ => do
    let vouches ← look (·.vouching.vouchesOf entry.1)
    match ← (commitVouch T voucher entry.1 entry.2 token vouches chainId).run with
    | .ok _ => return { borrower := entry.1, stake := entry.2, success := true, error := none }
    | .error e => return { borrower := entry.1, stake := entry.2, success := false, error := some e }

def batchVouch (voucher : Address) (borrowers : List Address) (stakes : List Int) (token : Address)
    (chainId : Option Nat) : Contract (VouchStore τ) (List BatchVouchResult) := do
  requireAuth voucher
  requireNotThawing
  let ctx ← ask
  require (borrowers ≠ [] ∧ borrowers.length = stakes.length) (.error .insufficientFunds)
  requireAllowedToken token
  each (batchEntry T ctx.vouchConfig voucher token chainId) (borrowers.zip stakes)

end

/-! ## What one entry does -/

section

variable {τ : Type}

/-- The voucher may vouch for the borrower at all. -/
def Eligible (w : World) (voucher : Address) (entry : Address × Int) : Prop :=
  0 < entry.2 ∧ voucher ≠ entry.1 ∧ w.blacklisted entry.1 = false

/-- The overdue loans of the borrower are marked. -/
def VouchStore.marked (s : VouchStore τ) (now : Nat) (borrower : Address) : VouchStore τ :=
  { s with book := s.book.markAll now (s.book.borrowerLoanIds borrower) }

/-- The stake has arrived, in full and no more. -/
def Arrived (T : TokenContract τ) (w : World) (token : Address) (stake : Int) (x y : τ) : Prop :=
  FitsI128 (T.balance y token w.contract - T.balance x token w.contract) ∧
    T.balance y token w.contract - T.balance x token w.contract = stake

/-- The record of a new vouch. -/
def newRecord (w : World) (voucher : Address) (stake : Int) (token : Address) (chainId : Option Nat) : VouchRecord :=
  { voucher, stake, vouchTimestamp := w.now, token, expiryTimestamp := none, delegate := none, chainId }

/-- The storage after a vouch that found the tokens in `y` afterwards. -/
def VouchStore.vouched (s : VouchStore τ) (w : World) (voucher token : Address) (chainId : Option Nat)
    (entry : Address × Int) (y : τ) : VouchStore τ :=
  { s with
    vouching := s.vouching.committed w.now entry.1 (newRecord w voucher entry.2 token chainId)
    tokens := y }

variable (T : TokenContract τ) {ctx : Context} {s : VouchStore τ} (cfg : VouchConfig) (voucher token : Address)
  (chainId : Option Nat) (entry : Address × Int)

/-- The voucher, the token and the borrower's records let the vouch in. -/
def Admitted (ctx : Context) (s : VouchStore τ) : Prop :=
  ∃ vouches, admitVouch T cfg voucher entry.1 entry.2 token chainId ctx s = .ok (vouches, s)

/-- What an entry may come to. -/
inductive Outcome (ctx : Context) (s : VouchStore τ) : Bool → VouchStore τ → Prop
  | ineligible : ¬ Eligible ctx.toWorld voucher entry → Outcome ctx s false s
  | refused : Eligible ctx.toWorld voucher entry →
      ¬ Admitted T cfg voucher token chainId entry ctx (s.marked ctx.now entry.1) →
      Outcome ctx s false (s.marked ctx.now entry.1)
  | short {y} : Eligible ctx.toWorld voucher entry →
      Admitted T cfg voucher token chainId entry ctx (s.marked ctx.now entry.1) →
      T.transfer s.tokens token voucher ctx.contract entry.2 = some y →
      ¬ Arrived T ctx.toWorld token entry.2 s.tokens y →
      Outcome ctx s false { s.marked ctx.now entry.1 with tokens := y }
  | vouched {y} : Eligible ctx.toWorld voucher entry →
      Admitted T cfg voucher token chainId entry ctx (s.marked ctx.now entry.1) →
      T.transfer s.tokens token voucher ctx.contract entry.2 = some y →
      Arrived T ctx.toWorld token entry.2 s.tokens y →
      Outcome ctx s true ((s.marked ctx.now entry.1).vouched ctx.toWorld voucher token chainId entry y)

theorem validateBorrower_eligible (ctx : Context) (x : Vouching) :
    Yields (validateBorrower voucher entry.1 entry.2) ctx x (fun _ y => y = x ∧ Eligible ctx.toWorld voucher entry) ∧
      ∀ c, Staged.Refuses Failure.returned (validateBorrower voucher entry.1 entry.2) ctx x c →
        ¬ Eligible ctx.toWorld voucher entry := by
  unfold validateBorrower requirePositiveAmount Eligible
  refine ⟨?_, fun c hc => ?_⟩
  · simp only [yields_steps]
    exact fun hpos hself hblack => ⟨trivial, hpos, hself, hblack⟩
  · rintro ⟨hpos, hself, hblack⟩
    simp [hpos, hself, hblack, run_ask, run_require] at hc

theorem admitVouch_reads (s : VouchStore τ) :
    Yields (admitVouch T cfg voucher entry.1 entry.2 token chainId) ctx s fun vouches t =>
      t = s ∧ vouches = s.vouching.vouchesOf entry.1 := by
  unfold admitVouch requireRoom
  simp only [yields_steps, yields_parts]
  refine yields_keeps id fun _ x hx => ?_
  rw [id, id] at hx
  subst hx
  exact fun _ _ _ _ => ⟨rfl, rfl⟩

theorem validateVouch_outcome (s : VouchStore τ) :
    Yields (validateVouch T cfg voucher entry.1 entry.2 token chainId).run ctx s fun r t =>
      ((∃ e, r = .error e) ∧ Outcome T cfg voucher token chainId entry ctx s false t) ∨
        ∃ vouches, r = .ok vouches ∧ vouches = t.vouching.vouchesOf entry.1 ∧ t = s.marked ctx.now entry.1 ∧
          Eligible ctx.toWorld voucher entry ∧ Admitted T cfg voucher token chainId entry ctx t := by
  unfold validateVouch
  simp only [Staged.lift_eq_stage, yields_parts]
  obtain ⟨heligible, hrefused⟩ := validateBorrower_eligible voucher entry ctx (Host.Part.get s)
  refine (Staged.yields_stage_bind ..).2 ⟨(yields_zoom _ _ _ _).2 (heligible.mono ?_), fun c hc => ?_⟩
  · rintro - _ ⟨rfl, heligible⟩
    refine (Staged.yields_firm_bind ..).2 ((yields_zoom _ _ _ _).2 ?_)
    refine (Yields.of_run (checkAllDefaults_run entry.1 ctx s.book)).mono ?_
    rintro count _ rfl
    refine (Staged.yields_stage ..).2 ⟨fun vouches t hadmit => ?_, fun c hc => .inl ⟨⟨c, rfl⟩, .refused heligible ?_⟩⟩
    · obtain ⟨rfl, hvouches⟩ := admitVouch_reads T cfg voucher token chainId entry _ vouches t hadmit
      exact .inr ⟨vouches, rfl, hvouches, rfl, heligible, vouches, hadmit⟩
    · rintro ⟨vouches, hadmit⟩
      exact Staged.not_refuses_of_ok hadmit hc
  · exact .inl ⟨⟨c, rfl⟩, .ineligible (hrefused c ((Staged.refuses_zoom _).1 hc))⟩

theorem holding_run (token : Address) (x : τ) : holding T token ctx x = .ok (T.balance x token ctx.contract, x) := rfl

theorem recordVouch_run (ctx : Context) (x : Vouching) :
    recordVouch voucher entry.1 entry.2 token (x.vouchesOf entry.1) chainId ctx x =
      .ok ((), x.committed ctx.now entry.1 (newRecord ctx.toWorld voucher entry.2 token chainId)) := rfl

instance : Staged.Firm Failure.returned (holding T token) := by
  unfold holding; infer_instance

instance (amount : Int) : Staged.Firm Failure.returned (transferIn T token voucher amount) := by
  unfold transferIn; infer_instance

instance (stake : Int) (vouches : List VouchRecord) :
    Staged.Firm Failure.returned (recordVouch voucher entry.1 stake token vouches chainId) := by
  unfold recordVouch; infer_instance

theorem transferIn_run (ctx : Context) (x : τ) :
    Yields (transferIn T token voucher entry.2) ctx x fun _ y =>
      T.transfer x token voucher ctx.contract entry.2 = some y := by
  unfold transferIn
  simp only [yields_steps, id_eq]
  exact fun y hy => hy

theorem requireReceived_run (ctx : Context) (x y : τ) (s : VouchStore τ) :
    Yields (requireReceived (T.balance x token ctx.contract) (T.balance y token ctx.contract) entry.2) ctx s (fun _ t =>
        Arrived T ctx.toWorld token entry.2 x y ∧ t = s) ∧
      ∀ c, Staged.Refuses Failure.returned
        (requireReceived (T.balance x token ctx.contract) (T.balance y token ctx.contract) entry.2) ctx s c →
          ¬ Arrived T ctx.toWorld token entry.2 x y := by
  unfold requireReceived Arrived
  refine ⟨?_, fun c hc => ?_⟩
  · simp only [yields_steps, yields_i128]
    exact fun hfits heq => ⟨⟨hfits, heq⟩, trivial⟩
  · rintro ⟨hfits, heq⟩
    rw [heq] at hfits
    simp [heq, hfits, run_i128] at hc

theorem commitVouch_outcome (s : VouchStore τ) :
    Yields (commitVouch T voucher entry.1 entry.2 token (s.vouching.vouchesOf entry.1) chainId).run ctx s fun r t =>
      ∃ y, T.transfer s.tokens token voucher ctx.contract entry.2 = some y ∧
        ((∃ e, r = .error e) ∧ ¬ Arrived T ctx.toWorld token entry.2 s.tokens y ∧ t = { s with tokens := y } ∨
          r = .ok () ∧ Arrived T ctx.toWorld token entry.2 s.tokens y ∧
            t = s.vouched ctx.toWorld voucher token chainId entry y) := by
  unfold commitVouch
  simp only [Staged.lift_eq_stage, yields_parts]
  refine (Staged.yields_firm_bind ..).2 ((yields_zoom _ _ _ _).2 ((Yields.of_run' (holding_run T token _)).mono ?_))
  rintro _ _ ⟨rfl, rfl⟩
  refine (Staged.yields_firm_bind ..).2 ((yields_zoom _ _ _ _).2 ((transferIn_run T voucher token entry ctx _).mono ?_))
  intro _ y hy
  refine (Staged.yields_firm_bind ..).2 ((yields_zoom _ _ _ _).2 ((Yields.of_run' (holding_run T token _)).mono ?_))
  rintro _ y ⟨rfl, rfl⟩
  obtain ⟨harrived, hshort⟩ := requireReceived_run T token entry ctx s.tokens y { s with tokens := y }
  refine (Staged.yields_stage_bind ..).2 ⟨harrived.mono ?_, fun c hc => ⟨y, hy, .inl ⟨⟨c, rfl⟩, hshort c hc, rfl⟩⟩⟩
  rintro - t ⟨harrived, rfl⟩
  have hrun := recordVouch_run voucher token chainId entry ctx s.vouching
  refine (Staged.yields_stage ..).2 ⟨(yields_zoom _ _ _ _).2 ((Yields.of_run' hrun).mono ?_), fun c hc => ?_⟩
  · rintro _ _ ⟨rfl, rfl⟩
    exact ⟨y, hy, .inr ⟨rfl, harrived, rfl⟩⟩
  · exact absurd hc (Staged.Firm.out _ _ c)

theorem batchEntry_outcome (s : VouchStore τ) :
    Yields (batchEntry T cfg voucher token chainId entry) ctx s fun r t =>
      r.borrower = entry.1 ∧ r.stake = entry.2 ∧ Outcome T cfg voucher token chainId entry ctx s r.success t := by
  unfold batchEntry
  rw [yields_bind]
  refine (validateVouch_outcome T cfg voucher token chainId entry s).mono fun r t ht => ?_
  rcases ht with ⟨⟨e, rfl⟩, hout⟩ | ⟨vouches, rfl, -, rfl, heligible, hadmitted⟩
  · exact (yields_pure _ _ _ _).2 ⟨rfl, rfl, hout⟩
  · simp only [yields_steps]
    refine (commitVouch_outcome T voucher token chainId entry _).mono fun r t ht => ?_
    obtain ⟨y, hy, ⟨⟨e, rfl⟩, hshort, rfl⟩ | ⟨rfl, harrived, rfl⟩⟩ := ht
    · exact (yields_pure _ _ _ _).2 ⟨rfl, rfl, .short heligible hadmitted hy hshort⟩
    · exact (yields_pure _ _ _ _).2 ⟨rfl, rfl, .vouched heligible hadmitted hy harrived⟩

/-- An entry that succeeded has been validated and committed. -/
theorem success_of {r : BatchVouchResult} {t : VouchStore τ}
    (h : batchEntry T cfg voucher token chainId entry ctx s = .ok (r, t)) (hr : r.success = true) :
    ∃ vouches u, (validateVouch T cfg voucher entry.1 entry.2 token chainId).run ctx s = .ok (.ok vouches, u) ∧
      (commitVouch T voucher entry.1 entry.2 token (u.vouching.vouchesOf entry.1) chainId).run ctx u =
        .ok (.ok (), t) := by
  obtain ⟨v, u, hvalid, h⟩ := bind_ok h
  cases v with
  | error e =>
    obtain ⟨rfl, -⟩ := pure_ok h
    cases hr
  | ok vouches =>
    obtain ⟨vouches', u', hlook, h⟩ := bind_ok h
    cases hlook
    obtain ⟨c, t', hcommit, h⟩ := bind_ok h
    cases c with
    | ok _ =>
      obtain ⟨-, rfl⟩ := pure_ok h
      exact ⟨vouches, u, hvalid, hcommit⟩
    | error e =>
      obtain ⟨rfl, -⟩ := pure_ok h
      cases hr

/-! ## One vouch -/

/-- The entry point, one guard after the other. -/
theorem vouch_eq :
    vouch T voucher entry.1 entry.2 token chainId = (do
      let ctx ← ask
      requireAuth voucher
      requireNotThawing
      validateBridge (chainOf (chainId.getD 0))
      checkRateLimit voucher
      registerBorrowerIfNeeded entry.1
      let vouches ← (validateVouch T ctx.vouchConfig voucher entry.1 entry.2 token
          (chainOf (chainId.getD 0))).settle .error
      (commitVouch T voucher entry.1 entry.2 token vouches (chainOf (chainId.getD 0))).settle .error) := by
  simp only [vouch, vouchWithChain, doVouch, Staged.settle_bind, Staged.lift_eq_stage,
    Staged.settle_stage returned_error, yields_parts]

theorem chainOf_getD {chainId : Option Nat} (h : chainId ≠ some 0) : chainOf (chainId.getD 0) = chainId := by
  cases chainId with
  | none => rfl
  | some id => exact if_neg fun hid => h (congrArg some hid)

theorem requireAuth_run {σ : Type} (hauth : voucher ∈ ctx.signers ∧ voucher ≠ ctx.contract) (x : σ) :
    (requireAuth voucher : Contract σ Unit) ctx x = .ok ((), x) := by
  simp [requireAuth, run_bind, run_ask, run_require, hauth]

theorem validateBridge_run (hbridge : ∀ cid, chainId = some cid → ctx.activeBridge cid = true) (x : Vouching) :
    validateBridge chainId ctx x = .ok ((), x) := by
  rw [validateBridge, run_bind_ok (run_ask ctx x), run_require, if_pos hbridge]

theorem registerBorrowerIfNeeded_listed {b : Address} {a : Access} (h : b ∈ a.borrowerList) :
    registerBorrowerIfNeeded b ctx a = .ok ((), a) := by
  rw [registerBorrowerIfNeeded, run_alter, if_pos h]

/-- Where the guards change nothing, a vouch does what the entry did. -/
theorem vouch_of_success (hauth : voucher ∈ ctx.signers ∧ voucher ≠ ctx.contract)
    (hopen : requireNotThawing ctx s.access = .ok ((), s.access))
    (hrate : checkRateLimit voucher ctx s.access = .ok ((), s.access)) (hlisted : entry.1 ∈ s.access.borrowerList)
    (hchain : chainId ≠ some 0) (hbridge : ∀ cid, chainId = some cid → ctx.activeBridge cid = true)
    {r : BatchVouchResult} {t : VouchStore τ}
    (h : batchEntry T ctx.vouchConfig voucher token chainId entry ctx s = .ok (r, t))
    (hr : r.success = true) : vouch T voucher entry.1 entry.2 token chainId ctx s = .ok ((), t) := by
  obtain ⟨vouches, u, hvalid, hcommit⟩ := success_of T _ voucher token chainId entry h hr
  have hvouches : vouches = u.vouching.vouchesOf entry.1 := by
    rcases validateVouch_outcome T ctx.vouchConfig voucher token chainId entry s _ u hvalid with
      ⟨⟨e, ⟨⟩⟩, -⟩ | ⟨_, ⟨⟩, hsame, -⟩
    exact hsame
  have hopen : (zoom requireNotThawing : Contract (VouchStore τ) Unit) ctx s = .ok ((), s) := zoom_of_ok hopen
  have hbridge : (zoom (validateBridge chainId) : Contract (VouchStore τ) Unit) ctx s = .ok ((), s) :=
    zoom_of_ok (validateBridge_run chainId hbridge s.vouching)
  have hrate : (zoom (checkRateLimit voucher) : Contract (VouchStore τ) Unit) ctx s = .ok ((), s) := zoom_of_ok hrate
  have hlisted : (zoom (registerBorrowerIfNeeded entry.1) : Contract (VouchStore τ) Unit) ctx s = .ok ((), s) :=
    zoom_of_ok (registerBorrowerIfNeeded_listed hlisted)
  rw [vouch_eq, chainOf_getD hchain]
  simp only [yields_parts]
  rw [run_bind_ok (run_ask ctx s), run_bind_ok (requireAuth_run voucher hauth s), run_bind_ok hopen,
    run_bind_ok hbridge, run_bind_ok hrate, run_bind_ok hlisted, run_bind_ok (Staged.settle_of_ok hvalid), hvouches,
    Staged.settle_of_ok hcommit]

theorem bridge_of_admitted (h : Admitted T cfg voucher token chainId entry ctx s) :
    ∀ cid, chainId = some cid → ctx.activeBridge cid = true := by
  obtain ⟨vouches, hadmit⟩ := h
  have hyields : Yields (admitVouch T cfg voucher entry.1 entry.2 token chainId) ctx s fun _ _ =>
      ∀ cid, chainId = some cid → ctx.activeBridge cid = true := by
    simp only [admitVouch, validateVoucher, validateBridge, yields_bind, yields_ask, yields_require,
      yields_requireAllowedToken, lift_eq_zoom, lift_self, yields_zoom]
    intro _ _ hbridge
    refine (yields_true _ _ _).mono fun _ _ _ => ?_
    refine (yields_true _ _ _).mono fun _ _ _ => ?_
    simp only [yields_look, yields_pure]
    exact (yields_true _ _ _).mono fun _ _ _ _ _ => hbridge
  exact hyields vouches s hadmit

/-- The borrower is on the list of borrowers. -/
def registered (b : Address) (a : Access) : Access :=
  if b ∈ a.borrowerList then a else { a with borrowerList := a.borrowerList ++ [b] }

/-- What a vouch that goes through does to the guards' storage and to the records. -/
theorem vouch_traces (s : VouchStore τ) :
    Yields (vouch T voucher entry.1 entry.2 token chainId) ctx s fun _ t =>
      ∃ a a' record, requireNotThawing ctx s.access = .ok ((), a) ∧ checkRateLimit voucher ctx a = .ok ((), a') ∧
        t.access = registered entry.1 a' ∧ record.chainId = chainOf (chainId.getD 0) ∧
          t.vouching.vouchesOf = update s.vouching.vouchesOf entry.1 (s.vouching.vouchesOf entry.1 ++ [record]) := by
  rw [vouch_eq]
  simp only [yields_parts, yields_steps, yields_requireAuth, validateBridge, registerBorrowerIfNeeded]
  intro _ _ a hopen _ _ a' hrate vouches u hvalid _ t hcommit
  have hvalid := Staged.of_settle_ok hvalid
  have hcommit := Staged.of_settle_ok hcommit
  rcases validateVouch_outcome T ctx.vouchConfig voucher token _ entry _ _ u hvalid with
    ⟨⟨e, ⟨⟩⟩, -⟩ | ⟨_, ⟨⟩, rfl, rfl, -⟩
  obtain ⟨y, -, ⟨⟨e, ⟨⟩⟩, -⟩ | ⟨-, -, rfl⟩⟩ := commitVouch_outcome T voucher token _ entry _ _ t hcommit
  exact ⟨a, a', newRecord ctx.toWorld voucher entry.2 token _, hopen, hrate, rfl, rfl, Vouching.committed_vouchesOf ..⟩

end

/-! ## The standard's tokens -/

/-- The token contract of the standard. -/
def standardToken : TokenContract Ledger where
  balance := Bank.balance
  transfer bank token src dst amount :=
    if 0 ≤ amount ∧ amount ≤ bank.balance token src then some (bank.move token src dst amount) else none

section

/-- The whole storage, with the standard's tokens. -/
local instance wholeStore : Host.Part Store (VouchStore Ledger) where
  get s := ⟨s.access, s.book, s.vault.vouching, s.vault.bank⟩
  set v s := { s with access := v.access, book := v.book, vault := ⟨v.tokens, v.vouching⟩ }
  get_set _ _ := rfl
  set_get _ := rfl
  set_set _ _ _ := rfl

theorem transferIn_standard (token src : Address) (amount : Int) :
    transferIn standardToken token src amount = collect token src amount := by
  funext ctx bank
  unfold transferIn collect Bank.transfer standardToken
  by_cases h : 0 ≤ amount ∧ amount ≤ bank.balance token src
  · simp [run_bind, run_ask, run_look, run_require, run_alter, run_pure, orFail, h]
  · simp [run_bind, run_ask, run_look, run_require, run_fail, orFail, h]

section

variable {α : Type}

theorem zoom_access (x : Contract Access α) :
    (zoom (zoom x : Contract (VouchStore Ledger) α) : Contract Store α) = zoom x := by
  funext ctx s
  simp only [run_zoom]
  cases x ctx s.access <;> rfl

theorem zoom_book (x : Contract LoanBook α) :
    (zoom (zoom x : Contract (VouchStore Ledger) α) : Contract Store α) = zoom x := by
  funext ctx s
  simp only [run_zoom]
  cases x ctx s.book <;> rfl

theorem zoom_vouching (x : Contract Vouching α) :
    (zoom (zoom x : Contract (VouchStore Ledger) α) : Contract Store α) = zoom (zoom x : Contract Vault α) := by
  funext ctx s
  simp only [run_zoom]
  cases x ctx s.vault.vouching <;> rfl

theorem zoom_tokens (x : Contract Ledger α) :
    (zoom (zoom x : Contract (VouchStore Ledger) α) : Contract Store α) = zoom (zoom x : Contract Vault α) := by
  funext ctx s
  simp only [run_zoom]
  cases x ctx s.vault.bank <;> rfl

end

theorem zoom_requireAuth {σ β : Type} [Host.Part σ β] (who : Address) :
    (zoom (requireAuth who : Contract β Unit) : Contract σ Unit) = requireAuth who := by
  simp only [requireAuth, zoom_bind, zoom_ask, zoom_require]

theorem validate_standard (cfg : VouchConfig) (voucher borrower : Address) (stake : Int) (token : Address)
    (chainId : Option Nat) :
    (zoom ((validateVouch standardToken cfg voucher borrower stake token chainId).settle .error) : Contract Store _) =
      QuorumCredit.validateVouch cfg voucher borrower stake token chainId := by
  simp only [validateVouch, QuorumCredit.validateVouch, admitVouch, Staged.settle_bind, Staged.lift_eq_stage,
    Staged.settle_stage returned_error, yields_parts, zoom_bind, zoom_vouching, zoom_book, zoom_look, zoom_require,
    zoom_pure]
  rfl

theorem commit_standard (voucher borrower : Address) (stake : Int) (token : Address) (vouches : List VouchRecord)
    (chainId : Option Nat) :
    (zoom ((commitVouch standardToken voucher borrower stake token vouches chainId).settle .error) :
      Contract Store Unit) =
      zoom (QuorumCredit.commitVouch voucher borrower stake token vouches chainId) := by
  simp only [commitVouch, Staged.settle_bind, Staged.lift_eq_stage, Staged.settle_stage returned_error, yields_parts,
    transferIn_standard, QuorumCredit.commitVouch, receive, zoom_bind, holding, requireReceived, recordVouch, zoom_ask,
    zoom_look, zoom_i128, zoom_require, zoom_tokens, zoom_alter]
  funext ctx s
  simp only [bind_assoc, run_bind, run_ask, run_look]
  rfl

/-- With the standard's tokens, a vouch is the one of the whole contract. -/
theorem vouch_standard (voucher : Address) (entry : Address × Int) (token : Address) (chainId : Option Nat) :
    (zoom (vouch standardToken voucher entry.1 entry.2 token chainId) : Contract Store Unit) =
      QuorumCredit.vouch voucher entry.1 entry.2 token (chainId.getD 0) := by
  rw [vouch_eq]
  simp only [zoom_bind, zoom_ask, zoom_requireAuth, yields_parts, zoom_access, zoom_vouching, validate_standard,
    commit_standard, QuorumCredit.vouch, QuorumCredit.doVouch]
  funext ctx s
  simp only [run_bind, run_ask]

end

end AnyToken

end QuorumCredit
