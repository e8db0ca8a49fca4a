import QuorumCredit.Reads
/-!
# What a call does to slashed funds

A slash files a record under its id and under the borrower, and leaves an entry
in the borrower's escrow. `SlashEffect` lists what a call does to these files,
and, for the operations that dispose of slashed funds, how much the contract
parts with.
-/

open Host Function

namespace QuorumCredit

/-! ## The files of slashes -/

/-- The slash records, by id and by borrower, and the escrow entries. -/
structure SlashFiles where
  counter : Nat
  record : Nat → Option SlashRecord
  audit : Address → Option SlashRecord
  escrow : Address → Option EscrowEntry

def Slashing.files (x : Slashing) : SlashFiles := ⟨x.slashRecordCounter, x.slashRecord, x.slashAudit, x.slashEscrow⟩

def Store.files (s : Store) : SlashFiles := s.slashing.files

/-- The treasury's two entries, together. -/
def Slashing.treasuries (x : Slashing) : Int := x.slashTreasury + x.persistentTreasury

def Store.treasuries (s : Store) : Int := s.slashing.treasuries

instance : Inside Store.files Slashing Slashing.files where
instance : Apart Store.files Access where
instance : Apart Store.files LoanBook where
instance : Apart Store.files Ballots where
instance : Apart Store.files Vault where
instance : Apart Store.files Terms where

instance : Apart Store.slashing Access where
instance : Apart Store.slashing LoanBook where
instance : Apart Store.slashing Vault where
instance : Apart Store.slashing Terms where

namespace SlashFiles

/-- The record, filed under the id and under the borrower. -/
def put (f : SlashFiles) (id : Nat) (b : Address) (record : SlashRecord) : SlashFiles :=
  { f with record := update f.record id (some record), audit := update f.audit b (some record) }

def setEscrow (f : SlashFiles) (b : Address) (entry : Option EscrowEntry) : SlashFiles :=
  { f with escrow := update f.escrow b entry }

/-- The files after a slash of `b`, whose funds stay in escrow until `release`. -/
def addSlash (f : SlashFiles) (b : Address) (record : SlashRecord) (release : Nat) : SlashFiles :=
  { (f.put (f.counter + 1) b record).setEscrow b (some (.slashed record.totalSlashed release)) with
    counter := f.counter + 1 }

end SlashFiles

/-- What the contract has paid out or credited to its treasury between `s` and `t`. -/
def spent (w : World) (s t : Store) : Int :=
  (Bank.outflow t.bank.log w.contract - Bank.outflow s.bank.log w.contract) + (t.treasuries - s.treasuries)

/-! ## Effects -/

/-- The stake `voter` has to vote on an appeal with. -/
def appealWeight (voter : Address) (voted : List Address) (vouches : List VouchRecord) : Int :=
  stakeSum (vouches.filter fun v => (v.voucher = voter ∨ v.delegate = some voter) ∧ v.voucher ∉ voted)

/-- The vote brings the appeal to its quorum, so it is decided at once. -/
def CarriesAppeal (s : Store) (voter b : Address) (approve : Bool) : Prop :=
  ∃ appeal, s.slashing.slashEscrowAppeal b = some appeal ∧ 0 < stakeSum (s.records b) ∧
    appealOverrideQuorumBps ≤
      ((appeal.approveStake + if approve = true then appealWeight voter appeal.voters (s.records b) else 0) *
        bpsDenominator).tdiv (stakeSum (s.records b))

/-- The call decides the appeal of `b`. -/
def Op.decidesAppeal (s : Store) (b : Address) : Op → Prop
  | .finalizeAppeal b' => b' = b
  | .voteAppeal voter b' approve => b' = b ∧ CarriesAppeal s voter b approve
  | _ => False

/-- The operations that change the files of slashes. -/
def Op.filesSlash : Op → Bool
  | .executeSlashVote _ | .executePendingSlash _ | .reverseSlash .. | .releaseSlashEscrow .. | .appealSlash _
  | .voteAppeal .. | .finalizeAppeal _ | .repay .. => true
  | _ => false

/-- From `s` to `t`, a slash of `b` has been filed as `record`. -/
structure Filed (w : World) (s t : Store) (b : Address) (record : SlashRecord) : Prop where
  id : record.slashId = s.files.counter + 1
  borrower : record.borrower = b
  recovery : record.recoveryAmount = 0
  standing : record.reversed = false
  nonneg : 0 ≤ w.config.slashBps → (∀ v ∈ s.records b, 0 < v.stake) → 0 ≤ record.totalSlashed
  files : t.files = s.files.addSlash b record (w.now + slashEscrowPeriod)

theorem Filed.congr {w : World} {s s' t : Store} {b : Address} {record : SlashRecord} (h : Filed w s t b record)
    (hf : s'.files = s.files) (hv : s'.records = s.records) : Filed w s' t b record :=
  ⟨hf ▸ h.id, h.borrower, h.recovery, h.standing, hv ▸ h.nonneg, hf ▸ h.files⟩

/-- From `s` to `t`, `amount` of the slash filed under `b` has been paid back out of the treasury. -/
structure Recovered (w : World) (s t : Store) (b : Address) (record : SlashRecord) (amount : Int) : Prop where
  audit : s.files.audit b = some record
  standing : record.reversed = false
  first : record.recoveryAmount ≤ 0
  pos : 0 < amount
  share : amount = (record.totalSlashed * w.config.recoveryPercentage).tdiv bpsDenominator
  files : t.files = s.files.put record.slashId b { record with recoveryAmount := amount }
  deducted : s.treasuries - t.treasuries = amount

theorem Recovered.congr {w : World} {s s' t t' : Store} {b : Address} {record : SlashRecord} {amount : Int}
    (h : Recovered w s t b record amount) (hs : s'.slashing = s.slashing) (ht : t'.slashing = t.slashing) :
    Recovered w s' t' b record amount := by
  have hsf : s'.files = s.files := congrArg Slashing.files hs
  have htf : t'.files = t.files := congrArg Slashing.files ht
  have hst : s'.treasuries = s.treasuries := congrArg Slashing.treasuries hs
  have htt : t'.treasuries = t.treasuries := congrArg Slashing.treasuries ht
  exact ⟨hsf ▸ h.audit, h.standing, h.first, h.pos, h.share, by rw [htf, hsf, h.files], by rw [hst, htt, h.deducted]⟩

/-- What a call does to the files when it goes through from `s` to `t`. -/
inductive SlashEffect (w : World) (s t : Store) : Op → Prop
  | kept {op} : op.filesSlash = false → t.files = s.files → SlashEffect w s t op
  | executed {op b record} : op.executes = some b → Filed w s t b record → SlashEffect w s t op
  | reversed {signers i reason record reversal} :
      s.files.record i = some record → record.reversed = false →
      t.files = s.files.put i record.borrower { record with reversed := true, reversalReason := reversal } →
      spent w s t = record.totalSlashed → SlashEffect w s t (.reverseSlash signers i reason)
  | released {signers b amount release} :
      s.files.escrow b = some (.slashed amount release) → release ≤ w.now → t.files = s.files.setEscrow b none →
      spent w s t = amount → SlashEffect w s t (.releaseSlashEscrow signers b)
  | appealed {b record escrow} :
      (∀ amount release, s.files.escrow b ≠ some (.slashed amount release)) → s.files.audit b = some record →
      escrow.escrowAmount = record.totalSlashed → t.files = s.files.setEscrow b (some (.appealed escrow)) →
      SlashEffect w s t (.appealSlash b)
  | voted {voter b approve} : (∃ escrow, s.files.escrow b = some (.appealed escrow)) →
      ¬ CarriesAppeal s voter b approve → t.files = s.files → spent w s t = 0 →
      SlashEffect w s t (.voteAppeal voter b approve)
  | decided {op b escrow} (status) : op.decidesAppeal s b → s.files.escrow b = some (.appealed escrow) →
      t.files = s.files.setEscrow b (some (.appealed { escrow with status })) →
      (escrow.escrowAmount = 0 → spent w s t = 0) → SlashEffect w s t op
  | repaid {b payment} : t.slashing = s.slashing → SlashEffect w s t (.repay b payment)
  | recovered {b payment record amount} : Recovered w s t b record amount → SlashEffect w s t (.repay b payment)

section Calls

variable {ctx : Context} {s : Store}

/-! ### A slash -/

theorem seizeStake_amount (bps : Int) (v : VouchRecord) (x : Vault) :
    Yields (seizeStake bps v) ctx x fun share _ => share = (v.stake * bps).tdiv bpsDenominator := by
  simp only [seizeStake, yields_steps, yields_i128, yields_ite]
  intro _ _
  exact ⟨fun _ => (yields_true _ _ _).mono fun _ _ _ => (yields_true _ _ _).mono fun _ _ _ => trivial,
    fun _ => (yields_true _ _ _).mono fun _ _ _ => trivial⟩

theorem seizeStakes_nonneg {bps : Int} (hbps : 0 ≤ bps) (token : Address) (total : Int)
    (remaining : List VouchRecord) {vouches : List VouchRecord} (hv : ∀ v ∈ vouches, 0 < v.stake) (x : Vault) :
    Yields (seizeStakes token bps total remaining vouches) ctx x fun r _ => total ≤ r.1 := by
  induction vouches generalizing total remaining x with
  | nil => simp [seizeStakes]
  | cons v vs ih =>
    obtain ⟨hstake, hrest⟩ := List.forall_mem_cons.1 hv
    simp only [seizeStakes, yields_ite, yields_bind, yields_ask, yields_i128, lift_eq_zoom, lift_self]
    refine ⟨fun _ => ⟨fun _ => yields_zoom_any fun _ bank => ih _ _ hrest _, fun _ => ih _ _ hrest x⟩, fun _ => ?_⟩
    refine (seizeStake_amount bps v x).mono fun share x' hshare _ => ?_
    refine (ih (total + share) remaining hrest x').mono fun r _ h => ?_
    have hpos : 0 ≤ (v.stake * bps).tdiv bpsDenominator :=
      Int.tdiv_nonneg (Int.mul_nonneg hstake.le hbps) (by decide)
    omega

theorem slashVouches_nonneg {bps : Int} (hbps : 0 ≤ bps) (borrower token : Address) {x : Vault}
    (hv : ∀ v ∈ x.records borrower, 0 < v.stake) :
    Yields (slashVouches borrower token bps) ctx x fun total _ => 0 ≤ total := by
  simp only [slashVouches, yields_bind, yields_look]
  refine (seizeStakes_nonneg hbps token 0 [] hv x).mono fun r _ h => ?_
  simp only [yields_alter, yields_pure]
  exact h

theorem recordSlash_files (loan : LoanRecord) (borrower : Address) (total bps : Int) (x : Slashing) :
    Yields (recordSlash loan borrower total bps) ctx x fun _ x' => ∃ record : SlashRecord,
      record.slashId = x.slashRecordCounter + 1 ∧ record.borrower = borrower ∧ record.totalSlashed = total ∧
        record.recoveryAmount = 0 ∧ record.reversed = false ∧
          x'.files = x.files.addSlash borrower record (ctx.now + slashEscrowPeriod) := by
  simp only [recordSlash, nextSlashId, yields_steps, yields_u64]
  intro _ _
  exact ⟨_, rfl, rfl, rfl, rfl, rfl, rfl⟩

/-- The rate of a slash is not negative. -/
theorem effectiveSlashBps_nonneg {cfg : Config} (h : 0 ≤ cfg.slashBps) (n : Nat) : 0 ≤ effectiveSlashBps cfg n := by
  unfold effectiveSlashBps
  omega

theorem executeSlash_files (borrower : Address) :
    Yields (executeSlash borrower) ctx s fun _ t => ∃ record, Filed ctx.toWorld s t borrower record := by
  unfold executeSlash
  simp only [yields_bind, yields_ask, yields_look, yields_orFail, yields_require, lift_eq_zoom, lift_self]
  refine yields_keeps₂ Store.vault Store.files fun _ s₀ hv hf => ?_
  intro loan _ _
  refine (yields_sumI128 _ _ _ _ _).mono ?_
  rintro _ s₁ ⟨-, rfl⟩
  have hnonneg : Yields (zoom (slashVouches borrower loan.tokenAddress
      (effectiveSlashBps ctx.config (s₁.book.defaultCount borrower))) : Contract Store Int) ctx s₁ fun total t =>
      (0 ≤ ctx.config.slashBps → (∀ v ∈ s.records borrower, 0 < v.stake) → 0 ≤ total) ∧ t.files = s₁.files := by
    refine Yields.and ?_ (Keeps.out (f := Store.files) ctx s₁)
    refine (yields_zoom _ _ _ _).2 fun total x hrun hbps hstakes => ?_
    have hstakes' : ∀ v ∈ s₁.vault.records borrower, 0 < v.stake := hv ▸ hstakes
    exact slashVouches_nonneg (effectiveSlashBps_nonneg hbps _) borrower _ hstakes' _ _ hrun
  refine hnonneg.mono fun total s₂ h₂ => ?_
  obtain ⟨hpos, hf₂⟩ := h₂
  refine yields_keeps Store.files fun _ s₃ h₃ => ?_
  refine (yields_zoom _ _ _ _).2 ((recordSlash_files loan borrower total _ _).mono fun _ x hx => ?_)
  obtain ⟨record, hid, hborrower, htotal, hrecovery, hreversed, hfiles⟩ := hx
  refine yields_keeps Store.files fun _ t ht => ?_
  have hbefore : s₃.files = s.files := h₃.trans (hf₂.trans hf)
  refine ⟨record, ?_, hborrower, hrecovery, hreversed, ?_, ?_⟩
  · rw [← hbefore]
    exact hid
  · rw [htotal]
    exact hpos
  · rw [ht, ← hbefore]
    exact hfiles

theorem executes_files {op : Op} {b : Address} (hop : op.executes = some b) :
    Yields (dispatch op) ctx s fun _ t => ∃ record, Filed ctx.toWorld s t b record := by
  have hslash (s₁ : Store) (hv : s₁.vault = s.vault) (hf : s₁.files = s.files) :
      Yields (executeSlash b) ctx s₁ fun _ t => ∃ record, Filed ctx.toWorld s t b record := by
    refine (executeSlash_files b).mono fun _ t ht => ?_
    obtain ⟨record, hfiled⟩ := ht
    exact ⟨record, hfiled.congr hf.symm (congrArg Vault.records hv).symm⟩
  cases op with
  | executeSlashVote borrower =>
    cases hop
    simp only [dispatch, executeSlashVote, yields_bind, yields_ask, yields_look, yields_orFail, yields_require,
      lift_eq_zoom, lift_self]
    refine yields_keeps₂ Store.vault Store.files fun _ s₁ hv hf => ?_
    intro vote _ _
    refine yields_keeps₂ Store.vault Store.files fun _ s₂ hv' hf' => ?_
    intro _
    refine yields_keeps₂ Store.vault Store.files fun _ s₃ hv'' hf'' => ?_
    exact hslash s₃ (hv''.trans (hv'.trans hv)) (hf''.trans (hf'.trans hf))
  | executePendingSlash borrower =>
    cases hop
    simp only [dispatch, executePendingSlash, yields_bind, yields_ask, yields_look, yields_orFail, yields_require,
      lift_eq_zoom, lift_self]
    refine yields_keeps₂ Store.vault Store.files fun _ s₁ hv hf => ?_
    intro pending _ _ _
    refine yields_keeps₂ Store.vault Store.files fun _ s₂ hv' hf' => ?_
    exact hslash s₂ (hv'.trans hv) (hf'.trans hf)
  | _ => cases hop

/-! ### Reversal, release and recovery -/

theorem spent_pay {w : World} {t : Store} {token dst : Address} {amount : Int}
    (hbank : t.bank = s.bank.move token w.contract dst amount) (htreasuries : t.treasuries = s.treasuries) :
    spent w s t = amount := by
  rw [spent, hbank, htreasuries, Bank.outflow_paid]
  omega

theorem spent_credit {w : World} {t : Store} {amount : Int} (hbank : t.bank = s.bank)
    (htreasuries : t.treasuries = s.treasuries + amount) : spent w s t = amount := by
  rw [spent, hbank, htreasuries]
  omega

theorem spent_nothing {w : World} {t : Store} (hbank : t.bank = s.bank) (htreasuries : t.treasuries = s.treasuries) :
    spent w s t = 0 :=
  spent_credit hbank (htreasuries.trans (add_zero _).symm)

theorem reverseSlash_effect (signers : List Address) (slashId : Nat) (reason : String) :
    Yields (reverseSlash signers slashId reason) ctx s fun _ t =>
      SlashEffect ctx.toWorld s t (.reverseSlash signers slashId reason) := by
  unfold reverseSlash saveReversal
  simp only [yields_steps, yields_parts, yields_pay]
  refine (yields_true _ _ _).mono fun _ a _ => ?_
  refine yields_keeps id fun _ s₁ h₁ => ?_
  rw [id, id] at h₁
  subst h₁
  intro record hrecord hreversed loan _ _ _
  exact .reversed hrecord hreversed rfl (spent_pay rfl rfl)

/-- Reading the entry as a slash left it: the entry, if there is one, is of that shape. -/
theorem slashedEscrow_spec (borrower : Address) (x : Slashing) :
    Yields (slashedEscrow borrower) ctx x fun r x' =>
      x' = x ∧ ∀ amount release, r = some (amount, release) →
        x.slashEscrow borrower = some (.slashed amount release) := by
  simp only [slashedEscrow, yields_steps]
  cases x.slashEscrow borrower with
  | none => simp
  | some entry => cases entry <;> simp

/-- Reading the entry as an appeal left it. -/
theorem appealedEscrow_spec (borrower : Address) (x : Slashing) :
    Yields (appealedEscrow borrower) ctx x fun r x' =>
      x' = x ∧ x.slashEscrow borrower = r.map .appealed := by
  simp only [appealedEscrow, yields_steps]
  cases x.slashEscrow borrower with
  | none => simp
  | some entry => cases entry <;> simp

theorem releaseSlashEscrow_effect (signers : List Address) (borrower : Address) :
    Yields (releaseSlashEscrow signers borrower) ctx s fun _ t =>
      SlashEffect ctx.toWorld s t (.releaseSlashEscrow signers borrower) := by
  unfold releaseSlashEscrow addSlashBalance setEscrow
  simp only [yields_steps, yields_parts]
  refine yields_keeps id fun _ s₁ h₁ => ?_
  rw [id, id] at h₁
  subst h₁
  refine (slashedEscrow_spec borrower _).mono ?_
  rintro r _ ⟨rfl, hentry⟩
  simp only [yields_i128]
  rintro ⟨amount, release⟩ hr hnow _
  exact .released (hentry amount release hr) hnow rfl (spent_credit rfl (add_right_comm _ _ _))

theorem treasuries_deduct (x : Slashing) (amount : Int) :
    x.treasuries - { x with slashTreasury := x.slashTreasury - amount }.treasuries = amount := by
  simp only [Slashing.treasuries]
  omega

theorem applySlashRecovery_slashing (borrower : Address) :
    Yields (applySlashRecovery borrower) ctx s fun _ t =>
      t.slashing = s.slashing ∨ ∃ record amount, Recovered ctx.toWorld s t borrower record amount := by
  simp only [applySlashRecovery, yields_steps]
  split
  case h_1 => exact (yields_pure _ _ _ _).2 (.inl rfl)
  case h_2 record haudit =>
    simp only [deductSlashBalance, saveAudit, yields_ite, yields_steps, yields_i128, yields_requireAllowedToken,
      yields_parts, yields_pay]
    refine ⟨fun _ => .inl trivial, fun hskip _ => ⟨fun _ => .inl trivial, fun hpos => ?_⟩⟩
    intro _ _ loan _ _ _ _
    rw [not_or, not_or, Bool.not_eq_true] at hskip
    exact .inr ⟨record, _, haudit, hskip.2.1, Int.not_lt.1 hskip.2.2, Int.not_le.1 hpos, rfl, rfl,
      treasuries_deduct s.slashing _⟩

/-- A settlement touches slashed funds only where it recovers part of a slash. -/
theorem settlePayment_slashing {P : Slashing → Prop} (borrower : Address) (paid : Payment) (wasDefaulted : Bool)
    (hkept : P s.slashing)
    (hrecovers : ∀ s', s'.slashing = s.slashing → Yields (applySlashRecovery borrower) ctx s' fun _ t => P t.slashing) :
    Yields (settlePayment borrower paid wasDefaulted) ctx s fun _ t => P t.slashing := by
  unfold settlePayment
  simp only [yields_steps, yields_ite]
  refine yields_keeps Store.slashing fun _ s₁ h₁ => ⟨fun _ => ⟨fun _ => ?_, fun _ => ?_⟩, fun _ => ?_⟩
  · refine (hrecovers s₁ h₁).mono fun _ s₂ h₂ => ?_
    exact yields_keeps Store.slashing fun _ t ht => ht.symm ▸ h₂
  · unfold closeLoan
    simp only [yields_steps]
    refine yields_keeps Store.slashing fun _ s₂ h₂ => ?_
    refine yields_keeps Store.slashing fun _ s₃ h₃ => ?_
    refine yields_keeps Store.slashing fun _ s₄ h₄ => ?_
    refine yields_keeps Store.slashing fun _ t ht => ?_
    rw [ht, h₄, h₃, h₂, h₁]
    exact hkept
  · refine yields_keeps Store.slashing fun _ t ht => ?_
    rw [ht, h₁]
    exact hkept

/-! ### Appeals -/

theorem appealSlash_effect (borrower : Address) :
    Yields (appealSlash borrower) ctx s fun _ t => SlashEffect ctx.toWorld s t (.appealSlash borrower) := by
  unfold appealSlash openAppeal
  simp only [yields_steps, yields_requireAuth, yields_parts]
  intro _
  refine (yields_true _ _ _).mono fun _ a _ _ => ?_
  refine (appealedEscrow_spec borrower _).mono ?_
  rintro r _ ⟨rfl, hentry⟩
  simp only [yields_u64]
  intro _ loan _ _ record haudit _
  have hshape (amount : Int) (release : Nat) : s.files.escrow borrower ≠ some (.slashed amount release) := by
    rw [show s.files.escrow borrower = r.map .appealed from hentry]
    intro h
    cases r <;> cases h
  exact .appealed hshape haudit rfl rfl

theorem appealApproved_spec (appeal : SlashEscrowAppealRecord) (totalStake : Int) (x : Slashing) :
    Yields (appealApproved appeal totalStake) ctx x fun approved x' => x' = x ∧
      (approved = true ↔ 0 < totalStake ∧
        appealOverrideQuorumBps ≤ (appeal.approveStake * bpsDenominator).tdiv totalStake) := by
  simp only [appealApproved, yields_ite, yields_steps, yields_i128]
  refine ⟨fun hpos _ => ⟨trivial, ?_⟩, fun hpos => ⟨trivial, ?_⟩⟩
  · simp [hpos]
  · simp [hpos]

/-- Shares of nothing are not paid. -/
theorem returnEscrow_nothing (token : Address) (totalStake : Int) (vouches : List VouchRecord) (bank : Ledger) :
    Yields (returnEscrow token 0 totalStake 0 vouches) ctx bank fun _ bank' => bank' = bank := by
  induction vouches with
  | nil => simp [returnEscrow]
  | cons v vs ih =>
    cases vs with
    | nil => simp [returnEscrow, yields_ite]
    | cons u us =>
      simp only [returnEscrow, yields_bind, yields_i128, yields_ite, Int.zero_mul, Int.zero_tdiv,
        Int.lt_irrefl, Int.add_zero]
      intro _ _ _
      exact ⟨False.elim, fun _ => ih⟩

theorem finalizeAppealInternal_effect {op : Op} {borrower : Address} (hop : op.decidesAppeal s borrower) {s₁ : Store}
    (hf : s₁.files = s.files) (hb : s₁.bank = s.bank) (ht : s₁.treasuries = s.treasuries) :
    Yields (finalizeAppealInternal borrower) ctx s₁ fun _ t => SlashEffect ctx.toWorld s t op := by
  unfold finalizeAppealInternal burnEscrow setEscrow
  simp only [yields_steps, yields_ite, yields_parts]
  refine (appealedEscrow_spec borrower _).mono ?_
  rintro r _ ⟨rfl, hentry⟩
  simp only [yields_i128]
  intro escrow hr _ appeal _
  refine (yields_sumI128 _ _ _ _ _).mono ?_
  rintro total _ ⟨-, rfl⟩
  refine (appealApproved_spec appeal total _).mono ?_
  rintro approved _ ⟨rfl, -⟩
  have hescrow : s.files.escrow borrower = some (.appealed escrow) := by
    rw [← hf]
    exact hentry.trans (by rw [hr]; rfl)
  refine ⟨fun _ loan _ => ?_, fun _ _ => ?_⟩
  · -- approved: the vouchers are paid out of the escrow
    have hpaid (vouches : List VouchRecord) :
        Yields (returnEscrow loan.tokenAddress escrow.escrowAmount total 0 vouches)
        ctx s₁.bank fun _ bank => escrow.escrowAmount = 0 → bank = s₁.bank := by
      intro _ bank hrun hzero
      rw [hzero] at hrun
      exact returnEscrow_nothing _ _ _ _ _ _ hrun
    refine (hpaid _).mono fun _ bank hbank => ?_
    refine .decided .approved hop hescrow ?_ fun hzero => spent_nothing ((hbank hzero).trans hb) ht
    rw [← hf]
    rfl
  · -- rejected: the escrow goes to the treasury
    refine .decided .rejected hop hescrow ?_ fun hzero => (spent_credit ?_ ?_).trans hzero
    · rw [← hf]
      rfl
    · exact hb
    · rw [← ht]
      exact (add_assoc _ _ _).symm

theorem finalizeAppeal_effect (borrower : Address) :
    Yields (finalizeAppeal borrower) ctx s fun _ t => SlashEffect ctx.toWorld s t (.finalizeAppeal borrower) := by
  unfold finalizeAppeal
  simp only [yields_steps, yields_parts]
  refine (yields_true _ _ _).mono fun _ a _ => ?_
  refine (appealedEscrow_spec borrower _).mono ?_
  rintro r _ ⟨rfl, -⟩ escrow _ _
  have hop : (Op.finalizeAppeal borrower).decidesAppeal s borrower := rfl
  exact finalizeAppealInternal_effect hop rfl rfl rfl

theorem appealStake_spec (voter : Address) (voted : List Address) (acc : Int × List Address)
    (vouches : List VouchRecord)
    (x : Slashing) : Yields (appealStake voter voted acc vouches) ctx x fun r x' =>
      x' = x ∧ r.1 = acc.1 + appealWeight voter voted vouches := by
  induction vouches generalizing acc with
  | nil => simp [appealStake, appealWeight, stakeSum]
  | cons v vs ih =>
    have hcons : appealWeight voter voted (v :: vs) =
        (if (v.voucher = voter ∨ v.delegate = some voter) ∧ v.voucher ∉ voted then v.stake else 0) +
          appealWeight voter voted vs := by
      unfold appealWeight
      rw [List.filter_cons]
      split <;> simp_all [stakeSum]
    simp only [appealStake, yields_ite, yields_bind, yields_i128]
    refine ⟨fun hmine _ => ?_, fun hother => ?_⟩
    · refine (ih _).mono ?_
      rintro r _ ⟨rfl, hr⟩
      rw [hr, hcons, if_pos hmine]
      exact ⟨rfl, add_assoc _ _ _⟩
    · refine (ih _).mono ?_
      rintro r _ ⟨rfl, hr⟩
      rw [hr, hcons, if_neg hother, zero_add]
      exact ⟨rfl, rfl⟩

theorem addAppealVote_spec (appeal : SlashEscrowAppealRecord) (approve : Bool) (stake : Int) (vouchers : List Address)
    (x : Slashing) : Yields (addAppealVote appeal approve stake vouchers) ctx x fun appeal' x' =>
      x' = x ∧ appeal'.approveStake = appeal.approveStake + if approve = true then stake else 0 := by
  unfold addAppealVote
  split
  case isTrue h =>
    simp only [yields_steps, yields_i128]
    exact fun _ => ⟨trivial, trivial⟩
  case isFalse h =>
    simp only [yields_steps, yields_i128]
    exact fun _ => ⟨trivial, (add_zero _).symm⟩

theorem voteAppeal_effect (voter borrower : Address) (approve : Bool) :
    Yields (voteAppeal voter borrower approve) ctx s fun _ t =>
      SlashEffect ctx.toWorld s t (.voteAppeal voter borrower approve) := by
  unfold voteAppeal setAppeal
  simp only [yields_steps, yields_requireAuth, yields_ite, yields_parts]
  intro _
  refine (yields_true _ _ _).mono fun _ a _ => ?_
  refine (appealedEscrow_spec borrower _).mono ?_
  rintro r _ ⟨rfl, hentry⟩ escrow hr _ _
  refine (yields_sumI128 _ _ _ _ _).mono ?_
  rintro total _ ⟨htotal, rfl⟩ appeal happeal
  refine (appealStake_spec voter appeal.voters (0, []) _ _).mono ?_
  rintro weight _ ⟨rfl, hweight⟩ _
  refine (addAppealVote_spec appeal approve weight.1 weight.2 _).mono ?_
  rintro appeal' _ ⟨rfl, happrove⟩
  refine (appealApproved_spec appeal' total _).mono ?_
  rintro approved _ ⟨rfl, happroved⟩
  have hsum : total = stakeSum (s.records borrower) := htotal.trans (zero_add _)
  have hmine : weight.1 = appealWeight voter appeal.voters (s.records borrower) := hweight.trans (zero_add _)
  rw [happrove, hmine, hsum] at happroved
  have hcarries : CarriesAppeal s voter borrower approve ↔ approved = true := by
    rw [happroved]
    constructor
    · rintro ⟨appeal₂, happeal₂, hcarried⟩
      cases happeal.symm.trans happeal₂
      exact hcarried
    · exact fun hcarried => ⟨appeal, happeal, hcarried⟩
  refine ⟨fun hyes => ?_, fun hno => ?_⟩
  · have hop : (Op.voteAppeal voter borrower approve).decidesAppeal s borrower := ⟨rfl, hcarries.2 hyes⟩
    exact finalizeAppealInternal_effect hop rfl rfl rfl
  · exact .voted ⟨escrow, hentry.trans (by rw [hr]; rfl)⟩ (fun h => hno (hcarries.1 h)) rfl (spent_nothing rfl rfl)

/-! ### All of them -/

instance (amount : Int) : Keeps Slashing.files (addSlashBalance amount) where
  out ctx x := by
    simp only [addSlashBalance, yields_steps, yields_i128]
    exact fun _ => rfl

instance (amount : Int) : Keeps Slashing.files (setTreasury amount) where
  out ctx x := by
    rw [setTreasury, yields_alter]
    rfl

instance (borrower : Address) (loan : LoanRecord) : Keeps Slashing.files (saveLoanAtBorrower borrower loan) where
  out ctx x := by
    rw [saveLoanAtBorrower, yields_alter]
    rfl

section

set_option synthInstance.maxSize 200000

instance (signers : List Address) (borrower : Address) : Keeps Store.files (slash signers borrower) := by
  unfold slash; infer_instance

instance (borrower : Address) : Keeps Store.files (autoSlash borrower) := by
  unfold autoSlash; infer_instance

instance (signers : List Address) (recipient : Address) : Keeps Store.files (slashTreasury signers recipient) := by
  unfold slashTreasury; infer_instance

instance (signers : List Address) (recipient : Address) (amount : Int) :
    Keeps Store.files (withdrawSlashTreasury signers recipient amount) := by
  unfold withdrawSlashTreasury; infer_instance

theorem repay_slashing {P : Slashing → Prop} (borrower : Address) (payment : Int) (hkept : P s.slashing)
    (hrecovers : ∀ s', s'.slashing = s.slashing → Yields (applySlashRecovery borrower) ctx s' fun _ t => P t.slashing) :
    Yields (repay borrower payment) ctx s fun _ t => P t.slashing := by
  unfold repay repayLoan
  simp only [yields_steps]
  refine yields_keeps Store.slashing fun _ s₁ h₁ => ?_
  refine yields_keeps Store.slashing fun _ s₂ h₂ => ?_
  refine yields_keeps Store.slashing fun _ s₃ h₃ => ?_
  refine yields_keeps Store.slashing fun _ s₄ h₄ => ?_
  refine yields_keeps Store.slashing fun _ s₅ h₅ => ?_
  intro loan _ _
  refine yields_keeps Store.slashing fun _ s₆ h₆ => ?_
  refine yields_keeps Store.slashing fun _ s₇ h₇ => ?_
  refine yields_keeps Store.slashing fun _ s₈ h₈ => ?_
  have hbefore : s₈.slashing = s.slashing := by rw [h₈, h₇, h₆, h₅, h₄, h₃, h₂, h₁]
  refine (settlePayment_slashing borrower _ _ (hbefore.symm ▸ hkept) ?_).mono fun _ s₉ h₉ => ?_
  · exact fun s' hs' => hrecovers s' (hs'.trans hbefore)
  · exact yields_keeps Store.slashing fun _ t ht => ht.symm ▸ h₉

theorem repay_slashEffect (borrower : Address) (payment : Int) :
    Yields (repay borrower payment) ctx s fun _ t => SlashEffect ctx.toWorld s t (.repay borrower payment) := by
  refine (repay_slashing (P := fun y => y = s.slashing ∨
    ∃ record amount, Recovered ctx.toWorld s { s with slashing := y } borrower record amount) borrower payment
      (.inl rfl) ?_).mono fun _ t ht => ?_
  · intro s' hs'
    refine (applySlashRecovery_slashing borrower).mono fun _ t ht => ?_
    rcases ht with ht | ⟨record, amount, ht⟩
    · exact .inl (ht.trans hs')
    · exact .inr ⟨record, amount, ht.congr hs'.symm rfl⟩
  · rcases ht with ht | ⟨record, amount, ht⟩
    · exact .repaid ht
    · exact .recovered (ht.congr rfl rfl)

theorem dispatch_slashEffect (op : Op) : Yields (dispatch op) ctx s fun _ t => SlashEffect ctx.toWorld s t op := by
  cases op with
  | executeSlashVote borrower => exact (executes_files rfl).mono fun _ _ ⟨_, h⟩ => .executed rfl h
  | executePendingSlash borrower => exact (executes_files rfl).mono fun _ _ ⟨_, h⟩ => .executed rfl h
  | reverseSlash signers slashId reason => exact reverseSlash_effect signers slashId reason
  | releaseSlashEscrow signers borrower => exact releaseSlashEscrow_effect signers borrower
  | appealSlash borrower => exact appealSlash_effect borrower
  | voteAppeal voter borrower approve => exact voteAppeal_effect voter borrower approve
  | finalizeAppeal borrower => exact finalizeAppeal_effect borrower
  | repay borrower payment => exact repay_slashEffect borrower payment
  | _ =>
    dsimp only [dispatch]
    exact yields_keeps Store.files fun _ _ h => .kept rfl h

end

end Calls

/-- A slash that goes through has been filed. -/
theorem filed_of {s : State} {c : Call} {t : Store} {b : Address} (hc : c.op.executes = some b) (h : exec c s = .ok t) :
    ∃ record, Filed s.world s.store t b record :=
  yields_exec (executes_files hc) h

/-- What a call that goes through does to slashed funds. -/
theorem slashEffect_of {s : State} {c : Call} {t : Store} (h : exec c s = .ok t) :
    SlashEffect s.world s.store t c.op :=
  yields_exec (dispatch_slashEffect c.op) h

/-! ## Files in order -/

namespace SlashFiles

/-- Every record is filed under its id, and the entry of a borrower is one of its records. -/
structure Sound (f : SlashFiles) : Prop where
  filed : ∀ i r, f.record i = some r → i ≤ f.counter ∧ r.slashId = i
  audited : ∀ b r, f.audit b = some r → r.borrower = b ∧ f.record r.slashId = some r

variable {f : SlashFiles}

/-- A record is filed again, changed in something else. -/
theorem Sound.put (hf : f.Sound) {i : Nat} {r r' : SlashRecord} (hr : f.record i = some r)
    (hid : r'.slashId = r.slashId) (hb : r'.borrower = r.borrower) : (f.put i r.borrower r').Sound := by
  have hrecord (j : Nat) : (f.put i r.borrower r').record j = if j = i then some r' else f.record j := update_apply ..
  refine ⟨fun j u hu => ?_, fun b u hu => ?_⟩
  · rw [hrecord] at hu
    split at hu
    case isTrue hj =>
      subst hj
      cases hu
      exact ⟨(hf.filed j r hr).1, hid.trans (hf.filed j r hr).2⟩
    case isFalse => exact hf.filed j u hu
  · rw [hrecord]
    change update f.audit r.borrower (some r') b = some u at hu
    by_cases hbr : b = r.borrower
    · rw [hbr, update_self] at hu
      cases hu
      exact ⟨hb.trans hbr.symm, if_pos (hid.trans (hf.filed i r hr).2)⟩
    · rw [update_of_ne hbr] at hu
      obtain ⟨hub, hur⟩ := hf.audited b u hu
      refine ⟨hub, (if_neg fun hui => hbr ?_).trans hur⟩
      rw [hui] at hur
      cases hr.symm.trans hur
      exact hub.symm

theorem addSlash_cases {b : Address} {record u : SlashRecord} {release j : Nat}
    (hu : (f.addSlash b record release).record j = some u) :
    (j = f.counter + 1 ∧ u = record) ∨ f.record j = some u := by
  change update f.record (f.counter + 1) (some record) j = some u at hu
  rw [update_apply] at hu
  split at hu
  case isTrue hj => exact .inl ⟨hj, (Option.some.inj hu).symm⟩
  case isFalse => exact .inr hu

/-- A new slash does not touch the records there are. -/
theorem Sound.addSlash_kept (hf : f.Sound) (b : Address) (record : SlashRecord) (release : Nat) {j : Nat}
    {u : SlashRecord} (hu : f.record j = some u) : (f.addSlash b record release).record j = some u := by
  have hj := (hf.filed j u hu).1
  exact (update_of_ne (by omega) ..).trans hu

theorem Sound.addSlash (hf : f.Sound) {b : Address} {record : SlashRecord} (release : Nat)
    (hid : record.slashId = f.counter + 1) (hb : record.borrower = b) : (f.addSlash b record release).Sound := by
  refine ⟨fun j u hu => ?_, fun b' u hu => ?_⟩
  · rcases addSlash_cases hu with ⟨rfl, rfl⟩ | hu
    · exact ⟨le_rfl, hid⟩
    · exact ⟨(hf.filed j u hu).1.trans (Nat.le_succ _), (hf.filed j u hu).2⟩
  · change update f.audit b (some record) b' = some u at hu
    rw [update_apply] at hu
    split at hu
    case isTrue hbb =>
      cases hu
      exact ⟨hb.trans hbb.symm, hid ▸ update_self ..⟩
    case isFalse => exact ⟨(hf.audited b' u hu).1, hf.addSlash_kept b record release (hf.audited b' u hu).2⟩

end SlashFiles

end QuorumCredit
