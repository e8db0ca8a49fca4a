import QuorumCredit.Stakes
import QuorumCredit.Host.Blind
import Mathlib.Algebra.Order.BigOperators.Group.List
/-!
# Reading before a slash

The getters write: they mark overdue loans on their way. Whether that shows in a
slash by vote or by pending record is a question about two runs, one from the
state as it is and one from the state after the reads. The slash looks at the
loan book only for the borrower's active loan and its number of defaults, so the
two runs are compared through those.
-/

open Host Function

namespace QuorumCredit

/-! ## What reads leave behind -/

/-- The getters that mark. -/
def Op.reads : Op → Bool
  | .getLoan _ | .getLoanById _ | .checkAllDefaults _ => true
  | _ => false

namespace LoanBook

variable {w : World} {now : Nat} {k : LoanBook}

/-- What a call looks at does not change when loans are marked. -/
theorem looksAt_markAll (k : LoanBook) (ids : List Nat) (op : Op) :
    op.looksAt w (k.markAll now ids) = op.looksAt w k := by
  have hids := markAll_borrowerLoanIds now k ids
  cases op
  case vouch | requestLoan | checkAllDefaults => exact congrFun hids _
  case batchVouch => simp only [Op.looksAt, entryIds_markAll]
  case getLoan borrower =>
    simp only [Op.looksAt, activeIds, getActiveLoanRecord, markAll_activeLoan]
    cases k.activeLoan borrower with
    | none => rfl
    | some id =>
      simp only [Option.bind_some, markAll_loan]
      by_cases hid : id ∈ ids
      · cases hl : k.loan id with
        | none => simp
        | some loan => simp [hid, markRecord_id]
      · simp [hid]
  all_goals rfl

end LoanBook

/-- All the loans a list of calls looks at. -/
def lookedAt (w : World) (k : LoanBook) (calls : List Call) : List Nat := calls.flatMap fun c => c.op.looksAt w k

/-- The state after a list of calls. -/
def State.afterAll (s : State) (calls : List Call) : State := calls.foldl State.after s

theorem after_read {s : State} {c : Call} (hc : c.op.reads = true) :
    s.after c =
      { s with
        store := { s.store with book := s.store.book.markAll s.world.now (c.op.looksAt s.world s.store.book) } } := by
  obtain ⟨signers, op⟩ := c
  have hrun {α : Type} {x : Contract LoanBook α} {k : LoanBook}
      (h : ∃ r, x (s.context ⟨signers, op⟩) s.store.book = .ok (r, k)) (hd : dispatch op = discard (zoom x)) :
      s.after ⟨signers, op⟩ = { s with store := { s.store with book := k } } := by
    obtain ⟨r, hr⟩ := h
    have hz : (zoom x : Contract Store α) (s.context ⟨signers, op⟩) s.store = .ok (r, { s.store with book := k }) := by
      rw [run_zoom, show x (s.context ⟨signers, op⟩) (Host.Part.get s.store) = _ from hr]
      rfl
    have he : exec ⟨signers, op⟩ s = .ok { s.store with book := k } := by
      unfold exec
      rw [hd]
      unfold discard
      rw [run_bind_ok hz, run_pure]
    unfold State.after
    rw [he]
  cases op with
  | getLoan borrower => exact hrun (getLoan_run borrower _ _) rfl
  | getLoanById id => exact hrun (getLoanById_run id _ _) rfl
  | checkAllDefaults borrower => exact hrun (checkAllDefaults_run borrower _ _) rfl
  | _ => cases hc

/-- Any number of reads only mark what they look at. -/
theorem afterAll_reads (s : State) {calls : List Call} (h : ∀ c ∈ calls, c.op.reads = true) :
    s.afterAll calls =
      { s with
        store := { s.store with book := s.store.book.markAll s.world.now (lookedAt s.world s.store.book calls) } } := by
  induction calls generalizing s with
  | nil => rfl
  | cons c calls ih =>
    obtain ⟨hc, hcalls⟩ := List.forall_mem_cons.1 h
    have hfirst := after_read (s := s) hc
    change (s.after c).afterAll calls = _
    rw [ih _ hcalls, hfirst]
    have hrest : lookedAt s.world (s.store.book.markAll s.world.now (c.op.looksAt s.world s.store.book)) calls =
        lookedAt s.world s.store.book calls := by
      unfold lookedAt
      simp only [LoanBook.looksAt_markAll]
    simp only [hrest]
    simp only [lookedAt, List.flatMap_cons, LoanBook.markAll, List.foldl_append]

/-! ## A slash, run twice -/

/-- What a slash at rate `bps` takes from a record, unless the product overflows. -/
def slashOf (bps : Int) (v : VouchRecord) : Option Int :=
  if FitsI128 (v.stake * bps) then some ((v.stake * bps).tdiv bpsDenominator) else none

/-- What a call took from the stakes of `voucher`, by the voucher's statistics. -/
def slashedFrom (s t : Store) (voucher : Address) : Int :=
  (t.vault.vouching.statsOf voucher).totalSlashed - (s.vault.vouching.statsOf voucher).totalSlashed

/-- Both calls go through and take the same from every voucher, or both are refused. -/
inductive SameSlash (s s' : Store) : Except Failure Store → Except Failure Store → Prop
  | slashed {t t'} : (∀ voucher, slashedFrom s t voucher = slashedFrom s' t' voucher) →
      SameSlash s s' (.ok t) (.ok t')
  | refused {e e'} : SameSlash s s' (.error e) (.error e')

/-- Two outcomes that leave the same vault, or two failures. -/
inductive SameVault : Except Failure (Unit × Store) → Except Failure (Unit × Store) → Prop
  | ok {t t'} : t'.vault = t.vault → SameVault (.ok ((), t)) (.ok ((), t'))
  | error {e e'} : SameVault (.error e) (.error e')

theorem SameVault.refl (r : Except Failure (Unit × Store)) : SameVault r r := by
  cases r with
  | error e => exact .error
  | ok p => exact .ok rfl

theorem SameVault.trans {r r' r'' : Except Failure (Unit × Store)} (h : SameVault r r') (h' : SameVault r' r'') :
    SameVault r r'' := by
  cases h with
  | ok hv =>
    cases h' with
    | ok hv' => exact .ok (hv'.trans hv)
  | error =>
    cases h' with
    | error => exact .error

theorem SameVault.of_alike {β : Type} [Part Store β] [ha : Apart Store.vault β]
    {r r' : Except Failure (Unit × Store)} (h : Alike β r r') : SameVault r r' := by
  cases h with
  | ok b => exact .ok (ha.out b _)
  | error => exact .error

instance : Beside Store LoanBook Access where
instance : Beside Store LoanBook Ballots where
instance : Beside Store LoanBook Vault where
instance : Beside Store LoanBook Slashing where
instance : Beside Store Slashing Vault where
instance (b : Address) : Apart (fun s : Store => s.vault.vouching.vouchesOf b) LoanBook where

/-- `execute_slash` from the point where the loan and the rate are known. -/
def settleSlash (borrower : Address) (loan : LoanRecord) (bps : Int) : Contract Store Unit := do
  let totalSlashed ← slashVouches borrower loan.tokenAddress bps
  onBook (·.settleDefaulted borrower loan)
  recordSlash loan borrower totalSlashed bps
  processWithdrawalQueue borrower

/-- `execute_slash` after it looked at the book. -/
def slashWith (ctx : Context) (borrower : Address) (vouches : List VouchRecord) (book : LoanBook) :
    Contract Store Unit := do
  let loan ← orFail (book.getActiveLoanRecord borrower) (.error .noActiveLoan)
  require (loan.status ≠ .defaulted) (.panic .slashAlreadyExecuted)
  let _ ← sumI128 .arithmetic 0 (vouches.map (·.stake))
  settleSlash borrower loan (effectiveSlashBps ctx.config (book.defaultCount borrower))

theorem executeSlash_eq (borrower : Address) :
    executeSlash borrower = (do
      let ctx ← ask
      requireSlashCooldown borrower
      let vouches ← look (·.vault.vouching.vouchesOf borrower)
      let book ← look (·.book)
      slashWith ctx borrower vouches book) := rfl

instance (f : LoanBook → LoanBook) : Blind LoanBook (liftM (onBook f) : Contract Store Unit) :=
  inferInstanceAs (Blind LoanBook (zoom (alter f) : Contract Store Unit))

instance (borrower : Address) (loan : LoanRecord) (bps : Int) : Blind LoanBook (settleSlash borrower loan bps) := by
  unfold settleSlash; infer_instance

instance {β : Type} [Part Store β] (e : Failure) (acc : Int) (xs : List Int) :
    Blind β (sumI128 e acc xs : Contract Store Int) := by
  induction xs generalizing acc with
  | nil => unfold sumI128; infer_instance
  | cons x xs ih => unfold sumI128 i128; infer_instance

instance (ctx : Context) (borrower : Address) (vouches : List VouchRecord) (book : LoanBook) :
    Blind LoanBook (slashWith ctx borrower vouches book) := by
  unfold slashWith; infer_instance

/-! ### At two rates -/

theorem seizeStake_congr {bps bps' : Int} {v : VouchRecord} (h : slashOf bps v = slashOf bps' v) :
    seizeStake bps v = seizeStake bps' v := by
  unfold slashOf at h
  unfold seizeStake
  by_cases hf : FitsI128 (v.stake * bps) <;> by_cases hf' : FitsI128 (v.stake * bps')
  · rw [if_pos hf, if_pos hf', Option.some.injEq] at h
    simp only [i128_of_fits _ hf, i128_of_fits _ hf', pure_bind, h]
  · rw [if_pos hf, if_neg hf'] at h
    cases h
  · rw [if_neg hf, if_pos hf'] at h
    cases h
  · simp only [i128_of_not_fits _ hf, i128_of_not_fits _ hf']

theorem seizeStakes_congr {loanToken : Address} {bps bps' : Int} {vouches : List VouchRecord}
    (h : ∀ v ∈ vouches, v.token = loanToken → slashOf bps v = slashOf bps' v) (total : Int)
    (remaining : List VouchRecord) :
    seizeStakes loanToken bps total remaining vouches = seizeStakes loanToken bps' total remaining vouches := by
  induction vouches generalizing total remaining with
  | nil => rfl
  | cons v vs ih =>
    obtain ⟨hv, hvs⟩ := List.forall_mem_cons.1 h
    unfold seizeStakes
    by_cases htoken : v.token = loanToken
    · simp only [htoken, ne_eq, not_true_eq_false, if_false, seizeStake_congr (hv htoken), ih hvs]
    · simp only [htoken, ne_eq, not_false_eq_true, if_true, ih hvs]

/-- The rate shows in the slash record only. -/
theorem recordSlash_alike (loan : LoanRecord) (borrower : Address) (total bps bps' : Int) (ctx : Context) (s : Store) :
    Alike Slashing ((liftM (recordSlash loan borrower total bps) : Contract Store Unit) ctx s)
      ((liftM (recordSlash loan borrower total bps') : Contract Store Unit) ctx s) := by
  simp only [yields_parts]
  refine alike_zoom ?_
  unfold recordSlash
  exact map_fst_bind fun w _ => map_fst_bind fun release _ => map_fst_bind fun id x => rfl

variable {borrower : Address}

/-- Where the two rates take the same from every stake, the same stakes go where they went. -/
theorem settleSlash_rate {loan : LoanRecord} {bps bps' : Int} {ctx : Context} {s : Store}
    (h : ∀ v ∈ s.vault.vouching.vouchesOf borrower, v.token = loan.tokenAddress → slashOf bps v = slashOf bps' v) :
    SameVault (settleSlash borrower loan bps ctx s) (settleSlash borrower loan bps' ctx s) := by
  have hseize : slashVouches borrower loan.tokenAddress bps ctx s.vault =
      slashVouches borrower loan.tokenAddress bps' ctx s.vault := by
    unfold slashVouches
    rw [run_bind_ok (run_look _ _ _), run_bind_ok (run_look _ _ _), seizeStakes_congr h]
  have hlift : (liftM (slashVouches borrower loan.tokenAddress bps) : Contract Store Int) ctx s =
      (liftM (slashVouches borrower loan.tokenAddress bps') : Contract Store Int) ctx s := by
    simp only [yields_parts, run_zoom]
    rw [show slashVouches borrower loan.tokenAddress bps ctx (Host.Part.get s) = _ from hseize]
    rfl
  have halike : Alike Slashing (settleSlash borrower loan bps ctx s) (settleSlash borrower loan bps' ctx s) := by
    unfold settleSlash
    refine alike_same Alike.refl hlift fun total s₁ _ => ?_
    refine alike_same Alike.refl rfl fun _ s₂ _ => ?_
    exact (recordSlash_alike loan borrower total bps bps' ctx s₂).bind fun _ s₃ x => Blind.out ctx s₃ x
  exact SameVault.of_alike halike

/-! ### At two books -/

/-- The book `k'` shows in no slash of `borrower` from `s`: it leads to the same
active loan, and its number of defaults makes for the same shares. -/
structure Unseen (ctx : Context) (s : Store) (borrower : Address) (k' : LoanBook) : Prop where
  active : k'.getActiveLoanRecord borrower = s.book.getActiveLoanRecord borrower
  shares : ∀ loan, s.book.getActiveLoanRecord borrower = some loan →
    ∀ v ∈ s.vault.vouching.vouchesOf borrower, v.token = loan.tokenAddress →
      slashOf (effectiveSlashBps ctx.config (s.book.defaultCount borrower)) v =
        slashOf (effectiveSlashBps ctx.config (k'.defaultCount borrower)) v

theorem Unseen.congr {ctx : Context} {s t : Store} {k' : LoanBook} (h : Unseen ctx s borrower k')
    (hbook : t.book = s.book) (hvault : t.vault = s.vault) : Unseen ctx t borrower k' := by
  constructor
  · rw [hbook]; exact h.active
  · rw [hbook, hvault]; exact h.shares

theorem slashWith_unseen {ctx : Context} {vouches : List VouchRecord} {k' : LoanBook} {s : Store}
    (h : Unseen ctx s borrower k') :
    SameVault (slashWith ctx borrower vouches s.book ctx s)
      (slashWith ctx borrower vouches k' ctx (Host.Part.set k' s)) := by
  -- first the rate changes, then the book
  refine SameVault.trans ?_ (SameVault.of_alike (Blind.out ctx s k'))
  unfold slashWith
  rw [h.active]
  refine alike_same SameVault.refl rfl fun loan s₁ h₁ => ?_
  obtain ⟨hloan, rfl⟩ := orFail_ok h₁
  refine alike_same SameVault.refl rfl fun _ s₂ h₂ => ?_
  obtain ⟨-, rfl⟩ := require_ok h₂
  refine alike_same SameVault.refl rfl fun _ s₃ h₃ => ?_
  have hkept : id s₃ = id s₂ := Keeps.out _ _ _ _ h₃
  rw [id, id] at hkept
  subst hkept
  exact settleSlash_rate (h.shares loan hloan)

theorem executeSlash_unseen {ctx : Context} {k' : LoanBook} {s : Store} (h : Unseen ctx s borrower k') :
    SameVault (executeSlash borrower ctx s) (executeSlash borrower ctx (Host.Part.set k' s)) := by
  rw [executeSlash_eq]
  refine alike_keeps (p := Store.book) SameVault.refl (fun _ => rfl) fun w s₁ h₁ _ => ?_
  cases h₁
  refine alike_keeps (p := Store.book) SameVault.refl (fun _ => rfl) fun _ s₂ h₂ hbook => ?_
  have hvault : s₂.vault = s.vault := Keeps.out (f := Store.vault) _ _ _ _ h₂
  refine alike_keeps (p := Store.book) SameVault.refl (fun _ => rfl) fun vouches s₃ h₃ _ => ?_
  cases h₃
  rw [run_bind_ok (run_look _ _ _), run_bind_ok (run_look _ _ _)]
  exact slashWith_unseen (h.congr hbook hvault)

/-- `execute_slash_vote` up to the slash. -/
def approveVote (borrower : Address) : Contract Store Unit := do
  let ctx ← ask
  requireNotPaused
  let ballots ← look (·.ballots)
  let vote ← orFail (ballots.slashVote borrower) (.error .slashVoteNotFound)
  require (vote.executed = false) (.error .slashAlreadyExecuted)
  let vouches ← look (·.vault.vouching.vouchesOf borrower)
  let totalStake ← sumI128 .arithmetic 0 (vouches.map (·.stake))
  require (quorumStake ctx.toWorld totalStake ≤ vote.approveStake) (.error .quorumNotMet)
  setSlashVote borrower { vote with executed := true }

/-- `execute_pending_slash` up to the slash. -/
def approvePending (borrower : Address) : Contract Store Unit := do
  let ctx ← ask
  requireNotPaused
  let ballots ← look (·.ballots)
  let pending ← orFail (ballots.pendingSlash borrower) (.error .slashVoteNotFound)
  require (pending.executed = false) (.error .slashAlreadyExecuted)
  require (pending.executableAt ≤ ctx.now) (.error .delayNotElapsed)
  setPendingSlash borrower { pending with executed := true }

set_option synthInstance.maxSize 200000 in
/-- Both are an approval, which looks at no loan, and then the slash. -/
theorem dispatch_executes {op : Op} (h : op.executes = some borrower) :
    ∃ approve : Contract Store Unit, Blind LoanBook approve ∧ Keeps Store.book approve ∧ Keeps Store.vault approve ∧
      dispatch op = (do approve; executeSlash borrower) := by
  cases op with
  | executeSlashVote b =>
    cases h
    refine ⟨approveVote borrower, ?_, ?_, ?_, ?_⟩
    · unfold approveVote; infer_instance
    · unfold approveVote; infer_instance
    · unfold approveVote; infer_instance
    · simp only [dispatch, executeSlashVote, approveVote, bind_assoc]
  | executePendingSlash b =>
    cases h
    refine ⟨approvePending borrower, ?_, ?_, ?_, ?_⟩
    · unfold approvePending; infer_instance
    · unfold approvePending; infer_instance
    · unfold approvePending; infer_instance
    · simp only [dispatch, executePendingSlash, approvePending, bind_assoc]
  | _ => cases h

theorem SameSlash.of_vault {c : Call} {s s' : State} (hvault : s'.store.vault = s.store.vault)
    (h : SameVault (dispatch c.op (s.context c) s.store) (dispatch c.op (s'.context c) s'.store)) :
    SameSlash s.store s'.store (exec c s) (exec c s') := by
  unfold exec
  generalize dispatch c.op (s.context c) s.store = r, dispatch c.op (s'.context c) s'.store = r' at h
  cases h with
  | ok ht =>
    refine .slashed fun voucher => ?_
    unfold slashedFrom
    rw [hvault, ht]
  | error => exact .refused

/-! ## What a slash takes -/

/-- What a slash at rate `bps` of a loan in `token` takes from `voucher`. -/
def takenFrom (token : Address) (bps : Int) (voucher : Address) (vouches : List VouchRecord) : Int :=
  (vouches.map fun v =>
    if v.token = token ∧ v.voucher = voucher then (v.stake * bps).tdiv bpsDenominator else 0).sum

/-- The statistics of the vouchers. -/
def Vault.stats (x : Vault) : Address → Option VoucherStats := x.vouching.voucherStats

def Store.stats (s : Store) : Address → Option VoucherStats := s.vault.stats

instance : Inside Store.stats Vault Vault.stats where
instance : Apart Store.stats LoanBook where
instance : Apart Store.stats Slashing where

/-- The total slashed that the statistics give for `voucher`. -/
def totalSlashed (stats : Address → Option VoucherStats) (voucher : Address) : Int :=
  ((stats voucher).getD .fresh).totalSlashed

section Calls

variable {ctx : Context} {s : Store}

theorem addSlashed_spec (voucher : Address) (amount : Int) (x : Vouching) :
    Yields (addSlashed voucher amount) ctx x fun _ x' =>
      ∀ u, totalSlashed x'.voucherStats u = totalSlashed x.voucherStats u + if voucher = u then amount else 0 := by
  simp only [addSlashed, yields_steps, yields_i128]
  intro _ u
  by_cases hu : voucher = u
  · subst hu
    simp [totalSlashed, Vouching.setStats, Vouching.statsOf]
  · simp [totalSlashed, Vouching.setStats, hu, Ne.symm hu]

theorem seizeStake_spec (bps : Int) (v : VouchRecord) (x : Vault) :
    Yields (seizeStake bps v) ctx x fun _ x' => FitsI128 (v.stake * bps) ∧
      ∀ u, totalSlashed x'.stats u = totalSlashed x.stats u +
        if v.voucher = u then (v.stake * bps).tdiv bpsDenominator else 0 := by
  simp only [seizeStake, yields_steps, yields_i128, yields_ite, yields_parts, yields_pay]
  intro hfits _
  have hadd (x : Vouching) : Yields (addSlashed v.voucher ((v.stake * bps).tdiv bpsDenominator)) ctx x _ :=
    addSlashed_spec _ _ x
  exact ⟨fun _ _ _ => (hadd _).mono fun _ _ h => ⟨hfits, h⟩, fun _ => (hadd _).mono fun _ _ h => ⟨hfits, h⟩⟩

theorem seizeStakes_spec (token : Address) (bps total : Int) (remaining vouches : List VouchRecord) (x : Vault) :
    Yields (seizeStakes token bps total remaining vouches) ctx x fun _ x' =>
      (∀ v ∈ vouches, v.token = token → FitsI128 (v.stake * bps)) ∧
        ∀ u, totalSlashed x'.stats u = totalSlashed x.stats u + takenFrom token bps u vouches := by
  induction vouches generalizing total remaining x with
  | nil => simp [seizeStakes, takenFrom]
  | cons v vs ih =>
    have hcons (u : Address) : takenFrom token bps u (v :: vs) =
        (if v.token = token ∧ v.voucher = u then (v.stake * bps).tdiv bpsDenominator else 0) +
          takenFrom token bps u vs := rfl
    simp only [seizeStakes, yields_ite, yields_bind, yields_ask, yields_i128, lift_eq_zoom, lift_self]
    refine ⟨fun htoken => ?_, fun htoken => ?_⟩
    · -- another token: paid back and kept
      have hrest (x' : Vault) (hx' : x'.stats = x.stats) :
          Yields (seizeStakes token bps total (remaining ++ [v]) vs) ctx x' fun _ x'' =>
            (∀ u ∈ v :: vs, u.token = token → FitsI128 (u.stake * bps)) ∧
              ∀ u, totalSlashed x''.stats u = totalSlashed x.stats u + takenFrom token bps u (v :: vs) := by
        refine (ih total _ x').mono fun _ x'' h => ⟨?_, fun u => ?_⟩
        · exact List.forall_mem_cons.2 ⟨fun h => absurd h htoken, h.1⟩
        · rw [h.2 u, hx', hcons, if_neg fun h => htoken h.1, zero_add]
      exact ⟨fun _ => yields_zoom_any fun _ bank => hrest _ rfl, fun _ => hrest x rfl⟩
    · refine (seizeStake_spec bps v x).mono fun share x' hx' _ => ?_
      refine (ih (total + share) remaining x').mono fun _ x'' h => ⟨?_, fun u => ?_⟩
      · exact List.forall_mem_cons.2 ⟨fun _ => hx'.1, h.1⟩
      · have htoken : v.token = token := not_not.1 htoken
        rw [h.2 u, hx'.2 u, hcons]
        simp only [htoken, true_and]
        omega

instance (borrower : Address) : Keeps Vault.stats (processWithdrawalQueue borrower) where
  out ctx x := by
    simp only [processWithdrawalQueue, yields_bind, yields_look, yields_ite, yields_pure]
    refine ⟨fun _ => trivial, fun _ => ?_⟩
    refine (yields_sumI128 _ _ _ _ _).mono ?_
    rintro fees _ ⟨-, rfl⟩
    simp only [lift_eq_zoom, lift_self]
    refine yields_zoom_any fun _ bank => yields_zoom_any fun _ bank' => ?_
    rw [yields_alter]
    rfl

theorem settleSlash_spec (borrower : Address) (loan : LoanRecord) (bps : Int) :
    Yields (settleSlash borrower loan bps) ctx s fun _ t =>
      (∀ v ∈ s.vault.vouching.vouchesOf borrower, v.token = loan.tokenAddress → FitsI128 (v.stake * bps)) ∧
        ∀ u, totalSlashed t.stats u = totalSlashed s.stats u +
          takenFrom loan.tokenAddress bps u (s.vault.vouching.vouchesOf borrower) := by
  unfold settleSlash slashVouches
  simp only [yields_bind, lift_eq_zoom, lift_self]
  refine (yields_zoom _ _ _ _).2 ?_
  simp only [yields_bind, yields_look]
  refine (seizeStakes_spec _ _ _ _ _ _).mono fun r x hx => ?_
  simp only [yields_alter, yields_pure]
  refine yields_keeps Store.stats fun _ s₁ h₁ => ?_
  refine yields_keeps Store.stats fun _ s₂ h₂ => ?_
  refine yields_keeps Store.stats fun _ t ht => ?_
  refine ⟨hx.1, fun u => ?_⟩
  rw [ht, h₂, h₁]
  have hstats := hx.2 u
  split <;> exact hstats

/-- The rate at which `execute_slash` slashes, from the book it finds. -/
def slashRate (w : World) (k : LoanBook) (borrower : Address) : Int :=
  effectiveSlashBps w.config (k.defaultCount borrower)

/-- What is true of a slash of `borrower` that goes through from `s` and ends in `t`. -/
structure Slashed (w : World) (s : Store) (borrower : Address) (t : Store) (loan : LoanRecord) : Prop where
  active : s.book.getActiveLoanRecord borrower = some loan
  status : loan.status ≠ .defaulted
  fits : ∀ v ∈ s.vault.vouching.vouchesOf borrower, v.token = loan.tokenAddress →
    FitsI128 (v.stake * slashRate w s.book borrower)
  taken : ∀ u, slashedFrom s t u =
    takenFrom loan.tokenAddress (slashRate w s.book borrower) u (s.vault.vouching.vouchesOf borrower)

theorem executeSlash_spec (borrower : Address) :
    Yields (executeSlash borrower) ctx s fun _ t => ∃ loan, Slashed ctx.toWorld s borrower t loan := by
  rw [executeSlash_eq]
  unfold slashWith
  simp only [yields_steps]
  refine yields_keeps₂ Store.book Store.vault fun _ s₁ hbook hvault loan hloan hstatus => ?_
  refine yields_keeps id fun _ s₂ h₂ => ?_
  rw [id, id] at h₂
  subst h₂
  refine (settleSlash_spec borrower loan _).mono fun _ t ht => ⟨loan, ?_⟩
  rw [hbook, hvault] at ht
  rw [hbook] at hloan
  have hstats : s₂.stats = s.stats := congrArg Vault.stats hvault
  refine ⟨hloan, hstatus, ht.1, fun u => ?_⟩
  have hu := ht.2 u
  rw [hstats] at hu
  change totalSlashed t.stats u - totalSlashed s.stats u = _
  rw [hu, add_sub_cancel_left]
  rfl

end Calls

theorem executes_spec {c : Call} {s : State} {t : Store} (hc : c.op.executes = some borrower) (h : exec c s = .ok t) :
    ∃ loan, Slashed s.world s.store borrower t loan := by
  obtain ⟨approve, -, hbook, hvault, hdispatch⟩ := dispatch_executes hc
  have hspec : Yields (dispatch c.op) (s.context c) s.store fun _ t => ∃ loan,
      Slashed s.world s.store borrower t loan := by
    rw [hdispatch, yields_bind]
    refine yields_keeps₂ Store.book Store.vault fun _ s₁ h₁ h₁' => ?_
    refine (executeSlash_spec borrower).mono fun _ t ht => ?_
    obtain ⟨loan, hactive, hstatus, hfits, htaken⟩ := ht
    refine ⟨loan, h₁ ▸ hactive, hstatus, ?_, fun u => ?_⟩
    · rw [h₁, h₁'] at hfits
      exact hfits
    · have hu := htaken u
      unfold slashedFrom at hu ⊢
      rw [h₁, h₁'] at hu
      exact hu
  unfold exec at h
  split at h
  case h_1 u t' hrun =>
    cases h
    exact hspec u _ hrun
  case h_2 => cases h

/-! ## Reads and slashes -/

/-- Where the terms of a sum do not decrease and the sum stays, no term changes. -/
theorem eq_of_sum_eq {α : Type} {f g : α → Int} {xs : List α} (hle : ∀ x ∈ xs, f x ≤ g x)
    (hsum : (xs.map f).sum = (xs.map g).sum) : ∀ x ∈ xs, f x = g x := by
  induction xs with
  | nil => exact fun _ hx => absurd hx List.not_mem_nil
  | cons x xs ih =>
    obtain ⟨hx, hxs⟩ := List.forall_mem_cons.1 hle
    have hrest : (xs.map f).sum ≤ (xs.map g).sum := List.sum_le_sum hxs
    simp only [List.map_cons, List.sum_cons] at hsum
    exact List.forall_mem_cons.2 ⟨by omega, ih hxs (by omega)⟩

/-- A higher rate takes no less from a positive stake. -/
theorem tdiv_mono {stake bps bps' : Int} (hstake : 0 < stake) (h : bps ≤ bps') :
    (stake * bps).tdiv bpsDenominator ≤ (stake * bps').tdiv bpsDenominator := by
  have hmul : stake * bps ≤ stake * bps' := Int.mul_le_mul_of_nonneg_left h hstake.le
  exact Int.tdiv_le_tdiv (by decide) hmul

theorem effectiveSlashBps_mono (cfg : Config) {m n : Nat} (h : m ≤ n) :
    effectiveSlashBps cfg m ≤ effectiveSlashBps cfg n := by
  unfold effectiveSlashBps
  omega

/-- The reads do not disturb a slash of `borrower`: none of them looks at the loan
the borrower's pointer leads to once it is overdue, and the rate after the
defaults they count takes the same from each stake in the loan's token. -/
structure Undisturbed (s : State) (reads : List Call) (borrower : Address) : Prop where
  unmarked : ∀ loan, s.store.book.getActiveLoanRecord borrower = some loan →
    loan.id ∈ lookedAt s.world s.store.book reads → isLoanDefaulted s.world.now loan = false
  shares : ∀ loan, s.store.book.getActiveLoanRecord borrower = some loan →
    ∀ v ∈ s.store.vault.vouching.vouchesOf borrower, v.token = loan.tokenAddress →
      slashOf (slashRate s.world s.store.book borrower) v =
        slashOf (slashRate s.world (s.store.book.markAll s.world.now (lookedAt s.world s.store.book reads)) borrower) v

theorem Undisturbed.unseen {s : State} (hk : s.store.book.Keyed) {reads : List Call}
    (h : Undisturbed s reads borrower) (c : Call) :
    Unseen (s.context c) s.store borrower (s.store.book.markAll s.world.now (lookedAt s.world s.store.book reads)) := by
  refine ⟨?_, h.shares⟩
  rw [hk.active_markAll]
  cases hloan : s.store.book.getActiveLoanRecord borrower with
  | none => rfl
  | some loan =>
    simp only [Option.map_some]
    split
    case isTrue hmem =>
      have hd := h.unmarked loan hloan hmem
      simp [markRecord, hd]
    case isFalse => rfl

/-- Undisturbed, the slash does the same before and after the reads. -/
theorem Undisturbed.same {s : State} (hk : s.store.book.Keyed) {reads : List Call}
    (hreads : ∀ c ∈ reads, c.op.reads = true) {c : Call} (hc : c.op.executes = some borrower)
    (h : Undisturbed s reads borrower) :
    SameSlash s.store (s.afterAll reads).store (exec c s) (exec c (s.afterAll reads)) := by
  obtain ⟨approve, hblind, hbook, hvault, hdispatch⟩ := dispatch_executes hc
  have hunseen := h.unseen hk c
  rw [afterAll_reads s hreads]
  refine SameSlash.of_vault rfl ?_
  rw [hdispatch]
  refine alike_keeps (p := Store.book) SameVault.refl (fun _ => rfl) fun _ s₁ h₁ hbook₁ => ?_
  exact executeSlash_unseen (hunseen.congr hbook₁ (hvault.out _ _ _ _ h₁))

/-- A slash that goes through before the reads and does the same after them was not disturbed. -/
theorem Undisturbed.of_same {s : State} (hr : Reachable s) {reads : List Call}
    (hreads : ∀ c ∈ reads, c.op.reads = true) {c : Call} (hc : c.op.executes = some borrower) {t : Store}
    (hexec : exec c s = .ok t) (h : SameSlash s.store (s.afterAll reads).store (exec c s) (exec c (s.afterAll reads))) :
    Undisturbed s reads borrower := by
  have hk : s.store.book.Keyed := hr.elim fun _ hr => hr.keyed
  have hwell := hr.wellFormed borrower
  obtain ⟨loan, hs⟩ := executes_spec hc hexec
  rw [hexec] at h
  generalize hexec' : exec c (s.afterAll reads) = r' at h
  cases h with
  | @slashed _ t' htaken =>
    obtain ⟨loan', hs'⟩ := executes_spec hc hexec'
    rw [afterAll_reads s hreads] at hs' htaken
    -- the pointer leads to the same loan after the reads, marked only if it was looked at
    have hactive := hs'.active
    have hmarked := hk.active_markAll s.world.now (lookedAt s.world s.store.book reads) borrower
    rw [hs.active, Option.map_some] at hmarked
    have hloan' := Option.some.inj (hmarked.symm.trans hactive)
    have hunmarked : loan.id ∈ lookedAt s.world s.store.book reads → isLoanDefaulted s.world.now loan = false := by
      intro hmem
      by_contra hd
      rw [Bool.not_eq_false] at hd
      rw [if_pos hmem, markRecord, if_pos hd] at hloan'
      exact hs'.status (hloan' ▸ rfl)
    have hsame : loan' = loan := by
      rw [← hloan']
      split
      case isTrue hmem => simp [markRecord, hunmarked hmem]
      case isFalse => rfl
    subst hsame
    refine ⟨fun loan₀ h₀ => ?_, fun loan₀ h₀ v hv htoken => ?_⟩
    · rw [hs.active] at h₀
      cases h₀
      exact hunmarked
    rw [hs.active] at h₀
    cases h₀
    -- both rates take the same from the voucher in total, and the higher one no less from each record
    have hsum : takenFrom loan'.tokenAddress (slashRate s.world s.store.book borrower) v.voucher _ = _ :=
      (hs.taken v.voucher).symm.trans ((htaken v.voucher).trans (hs'.taken v.voucher))
    have hrate := effectiveSlashBps_mono s.world.config
      (s.store.book.markAll_defaultCount s.world.now (lookedAt s.world s.store.book reads) borrower)
    have hterm := eq_of_sum_eq (fun u hu => ?_) hsum v hv
    · simp only [htoken, true_and, if_true] at hterm
      rw [slashOf, slashOf, if_pos (hs.fits v hv htoken), if_pos (hs'.fits v hv htoken), Option.some.injEq]
      exact hterm
    · split
      · exact tdiv_mono (hwell.staked u hu) hrate
      · exact le_rfl

/-- An executed slash does the same before and after any number of reads wherever
the reads do not disturb it, and, if it goes through before them, only then. -/
theorem slash_after_reads {s : State} (hr : Reachable s) {reads : List Call} (hreads : ∀ c ∈ reads, c.op.reads = true)
    {c : Call} {borrower : Address} (hc : c.op.executes = some borrower) :
    (Undisturbed s reads borrower →
        SameSlash s.store (s.afterAll reads).store (exec c s) (exec c (s.afterAll reads))) ∧
      (∀ t, exec c s = .ok t → SameSlash s.store (s.afterAll reads).store (exec c s) (exec c (s.afterAll reads)) →
        Undisturbed s reads borrower) := by
  refine ⟨fun h => ?_, fun t ht h => .of_same hr hreads hc ht h⟩
  obtain ⟨hist, hr⟩ := hr
  exact h.same hr.keyed hreads hc

/-- The pool loan, slashed by vote: voucher 2 alone is the quorum, and the loan is overdue by now. -/
def approvedLate : List Act :=
  poolLoan ++ [.call [2] (.voteSlash 2 10 true), .wait 2592001]

theorem slash_after_reads_of_another :
    SameSlash (start.play approvedLate).store ((start.play approvedLate).afterAll [⟨[], .getLoan 11⟩]).store
      (exec ⟨[], .executePendingSlash 10⟩ (start.play approvedLate))
      (exec ⟨[], .executePendingSlash 10⟩ ((start.play approvedLate).afterAll [⟨[], .getLoan 11⟩])) := by
  have hnone : lookedAt (start.play approvedLate).world
      (start.play approvedLate).store.book [⟨[], .getLoan 11⟩] = [] := by decide +kernel
  have hr : Reachable (start.play approvedLate) := Reachable.script sampleWorld sampleBank approvedLate
  refine (slash_after_reads hr (by decide) rfl).1 ⟨?_, ?_⟩
  · rw [hnone]
    exact fun _ _ h => absurd h List.not_mem_nil
  · rw [hnone]
    exact fun _ _ _ _ _ => rfl

/-- The slash `op` executes is approved: a vote that meets the quorum, or a pending slash past its delay. -/
def Op.approved (s : State) : Op → Prop
  | .executeSlashVote b => ∃ vote, s.store.ballots.slashVote b = some vote ∧ vote.executed = false ∧
      quorumStake s.world (stakeSum (s.store.vault.vouching.vouchesOf b)) ≤ vote.approveStake
  | .executePendingSlash b => ∃ pending, s.store.ballots.pendingSlash b = some pending ∧ pending.executed = false ∧
      pending.executableAt ≤ s.world.now
  | _ => False

/-- An approved slash of an overdue loan goes through, but not once someone has read the loan. -/
theorem read_disables_slash :
    ∃ s reads c b, Reachable s ∧ (∃ id loan, s.store.book.loan id = some loan ∧ loan.borrower = b ∧
      isLoanDefaulted s.world.now loan = true) ∧ (∀ c ∈ reads, c.op.reads = true) ∧ c.op.executes = some b ∧
      c.op.approved s ∧ ¬ SameSlash s.store (s.afterAll reads).store (exec c s) (exec c (s.afterAll reads)) := by
  have hloan : ((start.play approvedLate).store.book.loan 1).map (fun l => (l.borrower,
      isLoanDefaulted (start.play approvedLate).world.now l)) = some (10, true) := by decide +kernel
  have hpending : ((start.play approvedLate).store.ballots.pendingSlash 10).map (fun p => (p.executed,
      decide (p.executableAt ≤ (start.play approvedLate).world.now))) = some (false, true) := by decide +kernel
  have hbefore : (exec ⟨[], .executePendingSlash 10⟩ (start.play approvedLate)).toBool = true := by decide +kernel
  have hafter : (exec ⟨[], .executePendingSlash 10⟩
      ((start.play approvedLate).afterAll [⟨[], .getLoan 10⟩])).toBool = false := by decide +kernel
  obtain ⟨loan, hl, hloan⟩ := Option.map_eq_some_iff.1 hloan
  obtain ⟨pending, hp, hpending⟩ := Option.map_eq_some_iff.1 hpending
  obtain ⟨hborrower, hdefaulted⟩ := Prod.mk.inj hloan
  obtain ⟨hopen, hdue⟩ := Prod.mk.inj hpending
  refine ⟨start.play approvedLate, [⟨[], .getLoan 10⟩], ⟨[], .executePendingSlash 10⟩, 10,
    Reachable.script sampleWorld sampleBank approvedLate, ⟨1, loan, hl, hborrower, hdefaulted⟩, by decide, rfl,
    ⟨pending, hp, hopen, of_decide_eq_true hdue⟩, fun h => ?_⟩
  cases hs : exec ⟨[], .executePendingSlash 10⟩ (start.play approvedLate) with
  | error e => rw [hs] at hbefore; cases hbefore
  | ok t =>
    cases hs' : exec ⟨[], .executePendingSlash 10⟩ ((start.play approvedLate).afterAll [⟨[], .getLoan 10⟩]) with
    | error e => rw [hs, hs'] at h; cases h
    | ok t' => rw [hs'] at hafter; cases hafter

end QuorumCredit
