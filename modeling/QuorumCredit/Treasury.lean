import QuorumCredit.Disposal
/-!
# The slash treasury

What every call credits to the treasury of slashed funds and takes out of it.
The contract keeps the treasury in instance storage, and that is the balance it
reports. The rejection of an appeal is the one credit that is made to persistent
storage, under the same key, where nothing reads it again.
-/

open Host Function

namespace QuorumCredit

/-! ## The balances and the amounts -/

/-- The balance in instance storage and the one in persistent storage. -/
def Slashing.balances (x : Slashing) : Int × Int := (x.slashTreasury, x.persistentTreasury)

def Store.balances (s : Store) : Int × Int := s.slashing.balances

/-- `get_slash_treasury_balance`. -/
def Store.getSlashTreasuryBalance (s : Store) : Int := s.slashing.slashTreasury

/-- What a slash at the configured rate keeps of the stakes. -/
def slashedShares (w : World) (vouches : List VouchRecord) : Int :=
  (vouches.map fun v => (v.stake * w.config.slashBps).tdiv 10000).sum

def EscrowEntry.amount : EscrowEntry → Int
  | .slashed amount _ => amount
  | .appealed escrow => escrow.escrowAmount

/-- The funds in the escrow of the borrower. -/
def Store.escrowed (s : Store) (borrower : Address) : Int :=
  match s.slashing.slashEscrow borrower with
  | some entry => entry.amount
  | none => 0

/-- The appeal has the approving stake that overrides the slash. -/
def Store.overrides (s : Store) (borrower : Address) : Bool :=
  match s.slashing.slashEscrowAppeal borrower with
  | some appeal =>
    0 < stakeSum (s.records borrower) ∧
      appealOverrideQuorumBps ≤ (appeal.approveStake * bpsDenominator).tdiv (stakeSum (s.records borrower))
  | none => false

/-- What the call credits to the reported balance. -/
def Op.credited (w : World) (s : Store) : Op → Int
  | .slash _ b | .autoSlash b => slashedShares w (s.records b)
  | .releaseSlashEscrow _ b => s.escrowed b
  | _ => 0

/-- What the call credits in persistent storage: the escrow of an appeal it rejects. -/
def Op.burned (s : Store) : Op → Int
  | .finalizeAppeal b => if s.overrides b = true then 0 else s.escrowed b
  | _ => 0

/-- The recovery noted under the borrower, where it was not noted before. -/
def Slashing.recovered (x y : Slashing) (b : Address) : Int :=
  if y.slashAudit b = x.slashAudit b then 0
  else match y.slashAudit b with
    | some record => record.recoveryAmount
    | none => 0

/-- What the call that led from `s` to `t` takes out of the treasury. -/
def Op.takenOut (w : World) (s t : Store) : Op → Int
  | .repay b _ => s.slashing.recovered t.slashing b
  | .slashTreasury .. => Bank.outflow t.bank.log w.contract - Bank.outflow s.bank.log w.contract
  | .withdrawSlashTreasury _ _ amount => amount
  | _ => 0

/-- What a step credits to the treasury, in either storage. -/
def stepCredit : State × Move → Int
  | (s, .call c) => if (exec c s).toBool = true then c.op.credited s.world s.store + c.op.burned s.store else 0
  | (_, .elsewhere ..) => 0

/-- What a step takes out of the treasury. -/
def stepDebit : State × Move → Int
  | (s, .call c) =>
    match exec c s with
    | .ok t => c.op.takenOut s.world s.store t
    | .error _ => 0
  | (_, .elsewhere ..) => 0

/-- All credits of a history. -/
def credits (h : List (State × Move)) : Int := (h.map stepCredit).sum

/-- Everything a history took out. -/
def debits (h : List (State × Move)) : Int := (h.map stepDebit).sum

/-- The call rejects no appeal over funds in escrow. -/
def Op.burnsNothing (s : Store) : Op → Prop
  | .finalizeAppeal b => s.overrides b = true ∨ s.escrowed b = 0
  | _ => True

/-- A call that slashes does it at a rate that is not negative. -/
def Op.signed (w : World) : Op → Prop
  | .slash .. | .autoSlash _ | .executeSlashVote _ | .executePendingSlash _ => 0 ≤ w.config.slashBps
  | _ => True

/-! ## What one call books -/

instance : Inside Store.balances Slashing Slashing.balances where
instance : Apart Store.balances Access where
instance : Apart Store.balances LoanBook where
instance : Apart Store.balances Ballots where
instance : Apart Store.balances Vault where
instance : Apart Store.balances Terms where

/-- The balances after a call, by the amounts it books. -/
structure Accounted (w : World) (s t : Store) (op : Op) : Prop where
  reported : t.slashing.slashTreasury = s.slashing.slashTreasury + op.credited w s - op.takenOut w s t
  persistent : t.slashing.persistentTreasury = s.slashing.persistentTreasury + op.burned s
  covered : 0 ≤ s.slashing.slashTreasury → op.takenOut w s t ≤ s.slashing.slashTreasury

/-- The calls that book something. -/
def Op.books : Op → Bool
  | .slash .. | .autoSlash _ | .releaseSlashEscrow .. | .slashTreasury .. | .withdrawSlashTreasury .. | .voteAppeal ..
  | .finalizeAppeal _ | .repay .. => true
  | _ => false

theorem balance_quiet (balance : Int) : balance + 0 - 0 = balance := by omega

/-- A call that books nothing. -/
theorem Accounted.same {w : World} {s t : Store} {op : Op} (h : t.balances = s.balances)
    (hcredited : op.credited w s = 0)
    (hnone : op.takenOut w s t = 0) (hburned : op.burned s = 0) : Accounted w s t op := by
  obtain ⟨hreported, hpersistent⟩ := Prod.mk.inj h
  refine ⟨?_, ?_, ?_⟩
  · rw [hcredited, hnone, hreported, balance_quiet]
  · rw [hburned, hpersistent, Int.add_zero]
  · rw [hnone]
    exact id

theorem Accounted.quiet {w : World} {s t : Store} {op : Op} (hop : op.books = false) (h : t.balances = s.balances) :
    Accounted w s t op := by
  have hnone : op.credited w s = 0 ∧ op.takenOut w s t = 0 ∧ op.burned s = 0 := by
    cases op <;> first | exact ⟨rfl, rfl, rfl⟩ | cases hop
  exact .same h hnone.1 hnone.2.1 hnone.2.2

/-- A call that takes nothing out and leaves nothing in persistent storage. -/
theorem Accounted.credit {w : World} {s t : Store} {op : Op} {amount : Int}
    (h : t.balances = (s.slashing.slashTreasury + amount, s.slashing.persistentTreasury))
    (hcredited : op.credited w s = amount) (hnone : op.takenOut w s t = 0) (hburned : op.burned s = 0) :
    Accounted w s t op := by
  obtain ⟨hreported, hpersistent⟩ := Prod.mk.inj h
  refine ⟨?_, ?_, ?_⟩
  · rw [hreported, hcredited, hnone, Int.sub_zero]
  · rw [hpersistent, hburned, Int.add_zero]
  · rw [hnone]
    exact id

/-- A call that takes out what the balance covers, and credits nothing. -/
theorem Accounted.debit {w : World} {s t : Store} {op : Op} {amount : Int} (htaken : op.takenOut w s t = amount)
    (hreported : t.slashing.slashTreasury = s.slashing.slashTreasury - amount)
    (hpersistent : t.slashing.persistentTreasury = s.slashing.persistentTreasury)
    (hcovered : 0 ≤ s.slashing.slashTreasury → amount ≤ s.slashing.slashTreasury) (hcredited : op.credited w s = 0)
    (hburned : op.burned s = 0) : Accounted w s t op := by
  refine ⟨?_, ?_, ?_⟩
  · rw [hreported, hcredited, htaken, Int.add_zero]
  · rw [hpersistent, hburned, Int.add_zero]
  · rw [htaken]
    exact hcovered

section Calls

variable {ctx : Context} {s : Store}

theorem totalSlashShare_spec (acc : Int) (vouches : List VouchRecord) (bank : Ledger) :
    Yields (totalSlashShare acc vouches) ctx bank fun total _ => total = acc + slashedShares ctx.toWorld vouches := by
  induction vouches generalizing acc with
  | nil => simp [totalSlashShare, slashedShares]
  | cons v vs ih =>
    simp only [totalSlashShare, slashShare, yields_steps, yields_i128]
    intro _ _
    refine (ih _).mono ?_
    rintro total _ rfl
    rw [slashedShares, slashedShares, List.map_cons, List.sum_cons, add_assoc]

theorem slashAll_total (b : Address) (x : Vault) :
    Yields (slashAll b) ctx x fun total _ => total = slashedShares ctx.toWorld (x.records b) := by
  simp only [slashAll, yields_steps, yields_parts]
  refine (totalSlashShare_spec 0 _ _).mono ?_
  rintro total _ rfl
  refine (yields_true _ _ _).mono fun _ _ _ => ?_
  simp only [zero_add]
  rfl

theorem addSlashBalance_spec (amount : Int) (x : Slashing) :
    Yields (addSlashBalance amount) ctx x fun _ y => y.balances = (x.slashTreasury + amount, x.persistentTreasury) := by
  simp only [addSlashBalance, yields_steps, yields_i128]
  exact fun _ => rfl

theorem slash_booked (signers : List Address) (b : Address) :
    Yields (slash signers b) ctx s fun _ t => Accounted ctx.toWorld s t (.slash signers b) := by
  unfold slash
  simp only [yields_bind, yields_look, lift_eq_zoom, lift_self]
  refine yields_keeps₂ Store.vault Store.slashing fun _ s₁ hv₁ hx₁ => ?_
  refine yields_keeps₂ Store.vault Store.slashing fun _ s₂ hv₂ hx₂ => ?_
  refine yields_keeps₂ Store.vault Store.slashing fun loan s₃ hv₃ hx₃ => ?_
  refine (yields_zoom _ _ _ _).2 ((slashAll_total b _).mono ?_)
  rintro total x rfl
  refine (yields_zoom _ _ _ _).2 ((addSlashBalance_spec _ _).mono fun _ y hy => ?_)
  refine yields_keeps Store.balances fun _ s₄ hb₄ => ?_
  simp only [yields_ask, yields_require]
  intro _
  refine yields_keeps Store.balances fun _ t ht => ?_
  have hvault : s₃.vault = s.vault := hv₃.trans (hv₂.trans hv₁)
  have hslashing : s₃.slashing = s.slashing := hx₃.trans (hx₂.trans hx₁)
  have hafter : t.balances = (s₃.slashing.slashTreasury + slashedShares ctx.toWorld (s₃.vault.records b),
      s₃.slashing.persistentTreasury) := ht.trans (hb₄.trans hy)
  rw [hvault, hslashing] at hafter
  exact .credit hafter rfl rfl rfl

theorem autoSlash_booked (b : Address) :
    Yields (autoSlash b) ctx s fun _ t => Accounted ctx.toWorld s t (.autoSlash b) := by
  unfold autoSlash saveLoanAtBorrower
  simp only [yields_steps, yields_parts]
  intro loan _ _ _ _
  refine (slashAll_total b _).mono ?_
  rintro total x rfl
  exact (addSlashBalance_spec _ _).mono fun _ y hy _ => .credit hy rfl rfl rfl

theorem releaseSlashEscrow_booked (signers : List Address) (b : Address) :
    Yields (releaseSlashEscrow signers b) ctx s fun _ t =>
      Accounted ctx.toWorld s t (.releaseSlashEscrow signers b) := by
  unfold releaseSlashEscrow setEscrow
  simp only [yields_bind, yields_ask, lift_eq_zoom, lift_self, yields_zoom]
  refine yields_keeps id fun _ s₁ h₁ => ?_
  rw [id, id] at h₁
  subst h₁
  refine (slashedEscrow_spec b _).mono ?_
  rintro r _ ⟨rfl, hentry⟩
  simp only [yields_orFail, yields_require, yields_alter]
  rintro ⟨amount, release⟩ hr _
  refine (addSlashBalance_spec _ _).mono fun _ y hy => ?_
  have hescrow : s₁.slashing.slashEscrow b = some (.slashed amount release) := hentry amount release hr
  have hamount : s₁.escrowed b = amount := by
    rw [Store.escrowed, hescrow]
    rfl
  exact .credit hy hamount rfl rfl

theorem slashTreasury_booked (signers : List Address) (recipient : Address) :
    Yields (slashTreasury signers recipient) ctx s fun _ t =>
      Accounted ctx.toWorld s t (.slashTreasury signers recipient) := by
  unfold slashTreasury setTreasury
  simp only [yields_steps, yields_parts, yields_pay]
  refine yields_keeps id fun _ s₁ h₁ => ?_
  rw [id, id] at h₁
  subst h₁
  intro _ _ _
  refine .debit ?_ (Int.sub_self _).symm rfl (fun _ => le_refl s₁.slashing.slashTreasury) rfl rfl
  change (if ctx.contract = ctx.contract then s₁.slashing.slashTreasury else 0) +
    Bank.outflow s₁.bank.log ctx.contract -
    Bank.outflow s₁.bank.log ctx.contract = s₁.slashing.slashTreasury
  rw [if_pos rfl]
  omega

theorem withdrawSlashTreasury_booked (signers : List Address) (recipient : Address) (amount : Int) :
    Yields (withdrawSlashTreasury signers recipient amount) ctx s fun _ t =>
      Accounted ctx.toWorld s t (.withdrawSlashTreasury signers recipient amount) := by
  unfold withdrawSlashTreasury setTreasury
  simp only [yields_steps, yields_parts, yields_pay]
  intro _
  refine yields_keeps id fun _ s₁ h₁ => ?_
  rw [id, id] at h₁
  subst h₁
  intro _ hcovered _ _
  exact .debit rfl rfl rfl (fun _ => hcovered) rfl rfl

theorem recovered_noted {x y : Slashing} {b : Address} {record : SlashRecord} {amount : Int}
    (hx : x.slashAudit b = some record) (hy : y.slashAudit b = some { record with recoveryAmount := amount })
    (hfirst : record.recoveryAmount ≤ 0) (hpos : 0 < amount) : x.recovered y b = amount := by
  have hnew : ¬ y.slashAudit b = x.slashAudit b := by
    intro hsame
    rw [hx, hy] at hsame
    have hamount : amount = record.recoveryAmount := congrArg SlashRecord.recoveryAmount (Option.some.inj hsame)
    omega
  rw [Slashing.recovered, if_neg hnew, hy]

/-- A recovery comes out of the reported balance, and is noted where none was. -/
theorem applySlashRecovery_booked (b : Address) :
    Yields (applySlashRecovery b) ctx s fun _ t =>
      t.balances = (s.slashing.slashTreasury - s.slashing.recovered t.slashing b, s.slashing.persistentTreasury) ∧
        (0 ≤ s.slashing.slashTreasury → s.slashing.recovered t.slashing b ≤ s.slashing.slashTreasury) := by
  have hnone : s.slashing.recovered s.slashing b = 0 := if_pos rfl
  have hsame : s.balances = (s.slashing.slashTreasury - s.slashing.recovered s.slashing b,
      s.slashing.persistentTreasury) ∧
      (0 ≤ s.slashing.slashTreasury → s.slashing.recovered s.slashing b ≤ s.slashing.slashTreasury) := by
    rw [hnone, Int.sub_zero]
    exact ⟨rfl, id⟩
  simp only [applySlashRecovery, yields_steps]
  split
  case h_1 => exact (yields_pure _ _ _ _).2 hsame
  case h_2 record haudit =>
    simp only [deductSlashBalance, saveAudit, yields_ite, yields_steps, yields_i128, yields_requireAllowedToken,
      yields_parts, yields_pay]
    refine ⟨fun _ => hsame, fun hskip _ => ⟨fun _ => hsame, fun hpos => ?_⟩⟩
    intro hcovered _ loan _ _ _ _
    rw [not_or, not_or, Int.not_lt] at hskip
    rw [recovered_noted haudit (update_self ..) hskip.2.2 (Int.not_le.1 hpos)]
    exact ⟨rfl, fun _ => hcovered⟩

theorem repay_booked (b : Address) (payment : Int) :
    Yields (repay b payment) ctx s fun _ t => Accounted ctx.toWorld s t (.repay b payment) := by
  refine (repay_slashing (P := fun y =>
    y.balances = (s.slashing.slashTreasury - s.slashing.recovered y b, s.slashing.persistentTreasury) ∧
      (0 ≤ s.slashing.slashTreasury → s.slashing.recovered y b ≤ s.slashing.slashTreasury)) b payment ?_ ?_).mono ?_
  · rw [show s.slashing.recovered s.slashing b = 0 from if_pos rfl, Int.sub_zero]
    exact ⟨rfl, id⟩
  · intro s' hs'
    refine (applySlashRecovery_booked b).mono fun _ t ht => ?_
    rw [hs'] at ht
    exact ht
  · rintro _ t ⟨ht, hcovered⟩
    obtain ⟨hreported, hpersistent⟩ := Prod.mk.inj ht
    exact .debit rfl hreported hpersistent hcovered rfl rfl

/-! ### Appeals -/

theorem overrides_iff {b : Address} {appeal : SlashEscrowAppealRecord}
    (h : s.slashing.slashEscrowAppeal b = some appeal) :
    s.overrides b = true ↔ 0 < stakeSum (s.records b) ∧
      appealOverrideQuorumBps ≤ (appeal.approveStake * bpsDenominator).tdiv (stakeSum (s.records b)) := by
  rw [Store.overrides, h]
  exact decide_eq_true_iff

/-- The end of an appeal burns the escrow unless the appeal overrides the slash. -/
theorem finalizeAppealInternal_booked (b : Address) :
    Yields (finalizeAppealInternal b) ctx s fun _ t =>
      t.balances = (s.slashing.slashTreasury,
        s.slashing.persistentTreasury + if s.overrides b = true then 0 else s.escrowed b) := by
  unfold finalizeAppealInternal burnEscrow setEscrow
  simp only [yields_steps, yields_ite, yields_parts]
  refine (appealedEscrow_spec b _).mono ?_
  rintro r _ ⟨rfl, hentry⟩
  simp only [yields_i128]
  intro escrow hr _ appeal happeal
  refine (yields_sumI128 _ _ _ _ _).mono ?_
  rintro total _ ⟨htotal, rfl⟩
  refine (appealApproved_spec appeal total _).mono ?_
  rintro approved _ ⟨rfl, happroved⟩
  have hsum : total = stakeSum (s.records b) := htotal.trans (zero_add _)
  have happeal : s.slashing.slashEscrowAppeal b = some appeal := happeal
  have hoverrides : s.overrides b = true ↔ approved = true := by
    rw [overrides_iff happeal, happroved, hsum]
  have hescrow : s.slashing.slashEscrow b = some (.appealed escrow) := hentry.trans (by rw [hr]; rfl)
  have hamount : s.escrowed b = escrow.escrowAmount := by
    rw [Store.escrowed, hescrow]
    rfl
  refine ⟨fun hyes loan _ => ?_, fun hno _ => ?_⟩
  · refine (yields_true _ _ _).mono fun _ bank _ => ?_
    rw [if_pos (hoverrides.2 hyes), Int.add_zero]
    rfl
  · rw [if_neg fun h => hno (hoverrides.1 h), hamount]
    rfl

theorem finalizeAppealInternal_overriding {b : Address} (h : s.overrides b = true) :
    Yields (finalizeAppealInternal b) ctx s fun _ t => t.balances = s.balances := by
  refine (finalizeAppealInternal_booked b).mono fun _ t ht => ?_
  rw [ht, if_pos h, Int.add_zero]
  rfl

theorem finalizeAppeal_booked (b : Address) :
    Yields (finalizeAppeal b) ctx s fun _ t => Accounted ctx.toWorld s t (.finalizeAppeal b) := by
  unfold finalizeAppeal
  simp only [yields_steps, yields_parts]
  refine (yields_true _ _ _).mono fun _ a _ => ?_
  refine (appealedEscrow_spec b _).mono ?_
  rintro r _ ⟨rfl, -⟩ escrow _ _
  refine (finalizeAppealInternal_booked b).mono fun _ t ht => ?_
  obtain ⟨hreported, hpersistent⟩ := Prod.mk.inj ht
  exact ⟨hreported.trans (balance_quiet _).symm, hpersistent, fun h => h⟩

/-- A vote ends an appeal only where it overrides the slash. -/
theorem voteAppeal_booked (voter b : Address) (approve : Bool) :
    Yields (voteAppeal voter b approve) ctx s fun _ t => Accounted ctx.toWorld s t (.voteAppeal voter b approve) := by
  unfold voteAppeal setAppeal
  simp only [yields_steps, yields_requireAuth, yields_ite, yields_parts]
  intro _
  refine (yields_true _ _ _).mono fun _ a _ => ?_
  refine (appealedEscrow_spec b _).mono ?_
  rintro r _ ⟨rfl, -⟩ escrow hr _ _
  refine (yields_sumI128 _ _ _ _ _).mono ?_
  rintro total _ ⟨htotal, rfl⟩ appeal happeal
  refine (appealStake_spec voter appeal.voters (0, []) _ _).mono ?_
  rintro weight _ ⟨rfl, -⟩ _
  refine (addAppealVote_spec appeal approve weight.1 weight.2 _).mono ?_
  rintro appeal' _ ⟨rfl, -⟩
  refine (appealApproved_spec appeal' total _).mono ?_
  rintro approved _ ⟨rfl, happroved⟩
  refine ⟨fun hyes => ?_, fun hno => ?_⟩
  · rw [happroved, show total = stakeSum (s.records b) from htotal.trans (zero_add _)] at hyes
    refine (finalizeAppealInternal_overriding ?_).mono fun _ t ht => ?_
    · exact (overrides_iff (update_self ..)).2 hyes
    · exact .same ht rfl rfl rfl
  · exact .same rfl rfl rfl rfl

/-! ### All of them -/

instance (loan : LoanRecord) (borrower : Address) (total bps : Int) :
    Keeps Slashing.balances (recordSlash loan borrower total bps) where
  out ctx x := by
    simp only [recordSlash, nextSlashId, yields_steps, yields_u64]
    exact fun _ _ => rfl

instance (slashId : Nat) (record : SlashRecord) : Keeps Slashing.balances (saveReversal slashId record) where
  out ctx x := by
    rw [saveReversal, yields_alter]
    rfl

instance (borrower : Address) (escrow : SlashEscrow) (appeal : SlashEscrowAppealRecord) :
    Keeps Slashing.balances (openAppeal borrower escrow appeal) where
  out ctx x := by
    rw [openAppeal, yields_alter]
    rfl

section

set_option synthInstance.maxSize 200000

instance (borrower : Address) : Keeps Store.balances (executeSlash borrower) := by
  unfold executeSlash; infer_instance

instance (borrower : Address) : Keeps Store.balances (executeSlashVote borrower) := by
  unfold executeSlashVote; infer_instance

instance (borrower : Address) : Keeps Store.balances (executePendingSlash borrower) := by
  unfold executePendingSlash; infer_instance

instance (signers : List Address) (slashId : Nat) (reason : String) :
    Keeps Store.balances (reverseSlash signers slashId reason) := by
  unfold reverseSlash; infer_instance

instance (borrower : Address) : Keeps Store.balances (appealSlash borrower) := by
  unfold appealSlash; infer_instance

theorem dispatch_booked (op : Op) : Yields (dispatch op) ctx s fun _ t => Accounted ctx.toWorld s t op := by
  cases op with
  | slash signers b => exact slash_booked signers b
  | autoSlash b => exact autoSlash_booked b
  | releaseSlashEscrow signers b => exact releaseSlashEscrow_booked signers b
  | slashTreasury signers recipient => exact slashTreasury_booked signers recipient
  | withdrawSlashTreasury signers recipient amount => exact withdrawSlashTreasury_booked signers recipient amount
  | repay b payment => exact repay_booked b payment
  | voteAppeal voter b approve => exact voteAppeal_booked voter b approve
  | finalizeAppeal b => exact finalizeAppeal_booked b
  | _ =>
    dsimp only [dispatch]
    exact yields_keeps Store.balances fun _ _ h => .quiet rfl h

end

end Calls

theorem accounted_of {s : State} {c : Call} {t : Store} (h : exec c s = .ok t) : Accounted s.world s.store t c.op :=
  yields_exec (dispatch_booked c.op) h

/-! ## Signs -/

/-- What was slashed, and what is in escrow of it, is not negative. -/
structure SlashFiles.Signed (f : SlashFiles) : Prop where
  filed : ∀ id record, f.record id = some record → 0 ≤ record.totalSlashed
  audited : ∀ b record, f.audit b = some record → 0 ≤ record.totalSlashed
  held : ∀ b entry, f.escrow b = some entry → 0 ≤ entry.amount

namespace SlashFiles.Signed

variable {f : SlashFiles}

theorem put (h : f.Signed) (id : Nat) (b : Address) {record : SlashRecord} (hpos : 0 ≤ record.totalSlashed) :
    (f.put id b record).Signed where
  filed := (forall_update_iff f.record fun _ r => ∀ record, r = some record → 0 ≤ record.totalSlashed).2
    ⟨by rintro _ ⟨⟩; exact hpos, fun i _ => h.filed i⟩
  audited := (forall_update_iff f.audit fun _ r => ∀ record, r = some record → 0 ≤ record.totalSlashed).2
    ⟨by rintro _ ⟨⟩; exact hpos, fun b _ => h.audited b⟩
  held := h.held

theorem setEscrow (h : f.Signed) (b : Address) {entry : Option EscrowEntry}
    (hpos : ∀ e, entry = some e → 0 ≤ e.amount) :
    (f.setEscrow b entry).Signed where
  filed := h.filed
  audited := h.audited
  held := (forall_update_iff f.escrow fun _ entry => ∀ e, entry = some e → 0 ≤ e.amount).2 ⟨hpos, fun b _ => h.held b⟩

theorem addSlash (h : f.Signed) {b : Address} {record : SlashRecord} (hpos : 0 ≤ record.totalSlashed) (release : Nat) :
    (f.addSlash b record release).Signed := by
  have hentry : ∀ e, some (EscrowEntry.slashed record.totalSlashed release) = some e → 0 ≤ e.amount := by
    rintro _ ⟨⟩
    exact hpos
  have hset := (h.put (f.counter + 1) b hpos).setEscrow b hentry
  exact ⟨hset.filed, hset.audited, hset.held⟩

end SlashFiles.Signed

theorem SlashEffect.signed {w : World} {s t : Store} {op : Op} (he : SlashEffect w s t op) (hrate : op.signed w)
    (hwell : ∀ b, WellFormed (s.records b)) (h : s.files.Signed) : t.files.Signed := by
  cases he with
  | kept _ hfiles =>
    rw [hfiles]
    exact h
  | executed hop hfiled =>
    have hbps : 0 ≤ w.config.slashBps := by cases op <;> first | exact hrate | cases hop
    rw [hfiled.files]
    exact h.addSlash (hfiled.nonneg hbps (hwell _).staked) _
  | @reversed _ i _ record reversal hrecord _ hfiles _ =>
    have hpos : 0 ≤ record.totalSlashed := h.filed i record hrecord
    rw [hfiles]
    exact h.put _ _ hpos
  | released _ _ hfiles _ =>
    rw [hfiles]
    refine h.setEscrow _ ?_
    rintro _ ⟨⟩
  | appealed _ haudit hamount hfiles =>
    rw [hfiles]
    refine h.setEscrow _ ?_
    rintro _ ⟨⟩
    exact hamount.ge.trans' (h.audited _ _ haudit)
  | voted _ _ hfiles _ =>
    rw [hfiles]
    exact h
  | decided status _ hescrow hfiles _ =>
    rw [hfiles]
    have hpos := h.held _ _ hescrow
    refine h.setEscrow _ ?_
    rintro _ ⟨⟩
    exact hpos
  | repaid hslashing =>
    have hfiles : t.files = s.files := congrArg Slashing.files hslashing
    rw [hfiles]
    exact h
  | @recovered b payment record amount hrec =>
    have hpos : 0 ≤ record.totalSlashed := h.audited b record hrec.audit
    rw [hrec.files]
    exact h.put _ _ hpos

section

variable {s : Store}

theorem slashedShares_nonneg {w : World} (hbps : 0 ≤ w.config.slashBps) {vouches : List VouchRecord}
    (h : ∀ v ∈ vouches, 0 < v.stake) : 0 ≤ slashedShares w vouches := by
  refine List.sum_nonneg fun x hx => ?_
  obtain ⟨v, hv, rfl⟩ := List.mem_map.1 hx
  exact Int.tdiv_nonneg (Int.mul_nonneg (h v hv).le hbps) (by decide)

theorem escrowed_nonneg (h : s.files.Signed) (b : Address) : 0 ≤ s.escrowed b := by
  unfold Store.escrowed
  split
  case h_1 entry hentry => exact h.held b entry hentry
  case h_2 => exact le_rfl

theorem credited_nonneg {w : World} {op : Op} (hrate : op.signed w) (hwell : ∀ b, WellFormed (s.records b))
    (h : s.files.Signed) : 0 ≤ op.credited w s := by
  cases op with
  | slash signers b => exact slashedShares_nonneg hrate (hwell b).staked
  | autoSlash b => exact slashedShares_nonneg hrate (hwell b).staked
  | releaseSlashEscrow signers b => exact escrowed_nonneg h b
  | _ => exact le_rfl

theorem burned_nonneg (h : s.files.Signed) (op : Op) : 0 ≤ op.burned s := by
  cases op with
  | finalizeAppeal b =>
    simp only [Op.burned]
    split
    · exact le_rfl
    · exact escrowed_nonneg h b
  | _ => exact le_rfl

theorem burned_eq_zero {op : Op} : op.burned s = 0 ↔ op.burnsNothing s := by
  cases op with
  | finalizeAppeal b =>
    simp only [Op.burned, Op.burnsNothing]
    split
    case isTrue h => simp [h]
    case isFalse h => simp [h]
  | _ => exact iff_of_true rfl trivial

end

/-! ## Every run -/

/-- The two balances of a run, by what its steps booked. -/
structure Ledgered (h : List (State × Move)) (s : Store) : Prop where
  signed : s.files.Signed
  reported : 0 ≤ s.slashing.slashTreasury
  burned : 0 ≤ s.slashing.persistentTreasury
  unburned : s.slashing.persistentTreasury = 0 ↔ Along (WhenDone fun s op => op.burnsNothing s.store) h
  balance : s.slashing.slashTreasury + s.slashing.persistentTreasury = credits h - debits h

/-- A step that books nothing. -/
theorem Ledgered.quiet {h : List (State × Move)} {s t : Store} (hi : Ledgered h s) {e : State × Move}
    (hslashing : t.slashing = s.slashing) (hcredit : stepCredit e = 0) (hdebit : stepDebit e = 0)
    (hburns : WhenDone (fun s op => op.burnsNothing s.store) e.1 e.2) : Ledgered (e :: h) t where
  signed := by
    have hfiles : t.files = s.files := congrArg Slashing.files hslashing
    rw [hfiles]
    exact hi.signed
  reported := hslashing ▸ hi.reported
  burned := hslashing ▸ hi.burned
  unburned := by
    rw [hslashing, hi.unburned, Along, Along, List.forall_mem_cons]
    exact (and_iff_right hburns).symm
  balance := by
    rw [hslashing, hi.balance, credits, credits, debits, debits, List.map_cons, List.map_cons, List.sum_cons,
      List.sum_cons, hcredit, hdebit, zero_add, zero_add]

theorem Ledgered.done {h : List (State × Move)} {s : State} {c : Call} {t : Store} (hi : Ledgered h s.store)
    (hd : exec c s = .ok t) (hrate : c.op.signed s.world) (hwell : ∀ b, WellFormed (s.store.records b)) :
    Ledgered ((s, .call c) :: h) t := by
  have hbooked := accounted_of hd
  have hcredit : stepCredit (s, .call c) = c.op.credited s.world s.store + c.op.burned s.store := by
    simp [stepCredit, hd, Except.toBool]
  have hdebit : stepDebit (s, .call c) = c.op.takenOut s.world s.store t := by simp only [stepDebit, hd]
  have hcredited := credited_nonneg hrate hwell hi.signed
  have hburned := burned_nonneg hi.signed c.op
  have hcovered := hbooked.covered hi.reported
  have hreported := hi.reported
  have hpersistent := hi.burned
  refine ⟨(slashEffect_of hd).signed hrate hwell hi.signed, ?_, ?_, ?_, ?_⟩
  · rw [hbooked.reported]
    omega
  · rw [hbooked.persistent]
    omega
  · rw [Along, List.forall_mem_cons]
    change _ ↔ ((∃ t, exec c s = .ok t) → c.op.burnsNothing s.store) ∧ Along _ h
    rw [← hi.unburned, ← burned_eq_zero, hbooked.persistent]
    constructor
    · intro hzero
      exact ⟨fun _ => by omega, by omega⟩
    · rintro ⟨hnone, hzero⟩
      rw [hnone ⟨t, hd⟩, hzero]
      rfl
  · have hbalance := hi.balance
    rw [credits, debits, List.map_cons, List.map_cons, List.sum_cons, List.sum_cons, hcredit, hdebit, hbooked.reported,
      hbooked.persistent]
    rw [credits, debits] at hbalance
    omega

theorem History.ledgered {h : List (State × Move)} {s : State} (hr : History h s)
    (hrates : Along (WhenDone fun s op => op.signed s.world) h) : Ledgered h s.store := by
  refine History.inv (p := fun s op => op.signed s.world) (I := fun h s => Ledgered h s.store) (fun _ _ => ?_)
    (fun hr hi hd hrate => ?_) (fun hi he => ?_) (fun hi _ _ => ?_) hr hrates
  · refine ⟨⟨?_, ?_, ?_⟩, le_rfl, le_rfl, iff_of_true rfl (List.forall_mem_nil _), rfl⟩
    · rintro _ _ ⟨⟩
    · rintro _ _ ⟨⟩
    · rintro _ _ ⟨⟩
  · exact hi.done hd hrate fun b => Reachable.wellFormed ⟨_, hr⟩ b
  · refine hi.quiet rfl ?_ ?_ ?_
    · simp [stepCredit, he, Except.toBool]
    · simp only [stepDebit, he]
    · rintro ⟨t, ht⟩
      rw [he] at ht
      cases ht
  · exact hi.quiet rfl rfl rfl trivial

/-- In every run that slashes at no negative rate the reported balance is not negative,
and it is what was credited less what was taken out exactly if no appeal over funds in
escrow was rejected. -/
theorem treasury_one_ledger {h : List (State × Move)} {s : State} (hr : History h s)
    (hrates : Along (WhenDone fun s op => op.signed s.world) h) :
    0 ≤ s.store.getSlashTreasuryBalance ∧
      (s.store.getSlashTreasuryBalance = credits h - debits h ↔
        Along (WhenDone fun s op => op.burnsNothing s.store) h) := by
  have hi := hr.ledgered hrates
  refine ⟨hi.reported, ?_⟩
  rw [← hi.unburned, ← hi.balance]
  exact left_eq_add

/-- An escrow released to the treasury, and a part of it withdrawn. -/
def releasedAndWithdrawn : List Act :=
  executedSlash ++ [.wait 2592000, .call [1] (.releaseSlashEscrow [1] 10),
    .call [1] (.withdrawSlashTreasury [1] 3 100000)]

theorem treasury_one_ledger_withdrawn :
    ∃ h s, History h s ∧ debits h = 100000 ∧ 0 < s.store.getSlashTreasuryBalance ∧
      s.store.getSlashTreasuryBalance = credits h - debits h := by
  have hr := start_history releasedAndWithdrawn
  have hrates : Along (WhenDone fun s op => op.signed s.world) (start.trace [] releasedAndWithdrawn) := by
    intro e he
    have hvalid := (start_valid releasedAndWithdrawn).1 e he
    cases hm : e.2 with
    | call c =>
      intro _
      cases hop : c.op <;> first | exact trivial | exact hvalid.slashBps.1.le
    | elsewhere => trivial
  have hdebits : debits (start.trace [] releasedAndWithdrawn) = 100000 := by decide +kernel
  have hpos : 0 < (start.play releasedAndWithdrawn).store.getSlashTreasuryBalance := by decide +kernel
  refine ⟨_, _, hr, hdebits, hpos, (treasury_one_ledger hr hrates).2.2 ?_⟩
  refine along_trace _ (List.forall_mem_nil _) fun a ha _ => ?_
  simp only [releasedAndWithdrawn, executedSlash, votedLoan, poolLoan, List.cons_append, List.nil_append, List.mem_cons,
    List.not_mem_nil, or_false] at ha
  rcases ha with rfl | rfl | rfl | rfl | rfl | rfl | rfl <;> first | exact trivial | exact fun _ => trivial

/-- A rejected appeal is credited where the reported balance does not see it. -/
theorem rejected_escrow_unreported : ¬ ∀ h s, History h s → Along (fun s _ => s.world.config.Valid) h →
    s.store.getSlashTreasuryBalance = credits h - debits h := by
  intro hclaim
  have hlaw := hclaim _ _ (start_history releasedAndAppealed) (start_valid releasedAndAppealed).1
  revert hlaw
  decide +kernel

end QuorumCredit
