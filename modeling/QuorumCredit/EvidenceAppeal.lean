import QuorumCredit.VouchDelegation
import QuorumCredit.SlashSettlement
import QuorumCredit.Escrow
import QuorumCredit.MerkleTree
import QuorumCredit.Host.Under
/-!
# Appeals with evidence

`appeal_slash_with_evidence`, `vote_on_slash_appeal` and `execute_slash_appeal`: a
voucher appeals a slash, the administration decides, and an approved appeal pays
the voucher. What it pays is worked out from the voucher's stake in the records as
they are by then, and the slash has taken the slashed stake off them.
-/

open Host Function

namespace QuorumCredit

structure SlashAppealRecord where
  borrower : Address
  voucher : Address
  evidenceHash : Digest
  appealTimestamp : Nat
  approved : Option Bool
  adminVotes : List Address

/-- The storage of the contract, and what these appeals keep. -/
structure EvidenceStore where
  core : Store
  slashAppeal : Address × Address → Option SlashAppealRecord
  evidenceAppealPending : Address → Bool

instance : Part EvidenceStore Store where
  get := EvidenceStore.core
  set c s := { s with core := c }

/-! ## The calls -/

def setSlashAppeal (appeal : SlashAppealRecord) : Contract EvidenceStore Unit :=
  alter fun s => { s with slashAppeal := update s.slashAppeal (appeal.borrower, appeal.voucher) (some appeal) }

def setEvidencePending (borrower : Address) (pending : Bool) : Contract EvidenceStore Unit :=
  alter fun s => { s with evidenceAppealPending := update s.evidenceAppealPending borrower pending }

def appealSlashWithEvidence (voucher borrower : Address) (evidenceHash : Digest) : Contract EvidenceStore Unit := do
  requireAuth voucher
  (requireNotPaused : Contract Store _)
  -- an escrow that the slash has left does not decode as one of an appeal
  let escrow ← (zoom (appealedEscrow borrower) : Contract Store _)
  require (∀ e, escrow = some e → e.status ≠ .pending) (.error .appealAlreadyPending)
  let book ← look (·.core.book)
  let loan ← orFail (book.getLatestLoanRecord borrower) (.error .noActiveLoan)
  require (loan.status = .defaulted) (.error .noActiveLoan)
  let ctx ← ask
  setSlashAppeal { borrower, voucher, evidenceHash, appealTimestamp := ctx.now, approved := none, adminVotes := [] }
  setEvidencePending borrower true

def voteOnSlashAppeal (adminSigners : List Address) (borrower voucher : Address) (approve : Bool) :
    Contract EvidenceStore Unit := do
  (requireNotPaused : Contract Store _)
  requireAdminApproval adminSigners
  let appeal ← orFail (← look (·.slashAppeal (borrower, voucher))) (.error .noActiveLoan)
  require (appeal.approved = none) (.error .slashAlreadyExecuted)
  setSlashAppeal { appeal with approved := some approve, adminVotes := adminSigners }
  if approve = false then setEvidencePending borrower false else pure ()

/-- The stake in the voucher's first record in the token; 0 without one. -/
def stakeWith (voucher token : Address) (vouches : List VouchRecord) : Int :=
  ((findVouchIn voucher token vouches).map (·.stake)).getD 0

def executeSlashAppeal (borrower voucher : Address) : Contract EvidenceStore Unit := do
  (requireNotPaused : Contract Store _)
  let appeal ← orFail (← look (·.slashAppeal (borrower, voucher))) (.error .noActiveLoan)
  require (appeal.approved = some true) (.error .unauthorizedCaller)
  let book ← look (·.core.book)
  let loan ← orFail (book.getLatestLoanRecord borrower) (.error .noActiveLoan)
  let record ← orFail (← look (·.core.slashing.slashAudit borrower)) (.error .slashRecordNotFound)
  let vouches ← look (·.core.records borrower)
  let originalStake := stakeWith voucher loan.tokenAddress vouches
  let product ← i128 (.error .arithmeticError) (originalStake * record.effectiveSlashBps)
  let restoredAmount ← i128 (.error .arithmeticError) (originalStake - product.tdiv bpsDenominator)
  if 0 < restoredAmount then (pay loan.tokenAddress voucher restoredAmount : Contract Ledger _) else pure ()
  alter fun s => { s with slashAppeal := update s.slashAppeal (borrower, voucher) none }
  setEvidencePending borrower false

/-! ## The system -/

inductive EvidenceOp where
  /-- A call on the loans and the vouches. -/
  | core (op : Op)
  /-- The slash that the lazy queue and the timelock execute. -/
  | executeSlash (borrower : Address)
  | appealSlashWithEvidence (voucher borrower : Address) (evidenceHash : Digest)
  | voteOnSlashAppeal (adminSigners : List Address) (borrower voucher : Address) (approve : Bool)
  | executeSlashAppeal (borrower voucher : Address)

/-- The context of a call, with the flag of these appeals. -/
def evidenceContext (ctx : Context) (s : EvidenceStore) : Context :=
  { ctx with toWorld := { ctx.toWorld with evidenceAppealPending := s.evidenceAppealPending } }

def EvidenceOp.run : EvidenceOp → Contract EvidenceStore Unit
  | .core op => under evidenceContext (zoom (dispatch op))
  | .executeSlash borrower => under evidenceContext (zoom (QuorumCredit.executeSlash borrower))
  | .appealSlashWithEvidence voucher borrower evidenceHash =>
    QuorumCredit.appealSlashWithEvidence voucher borrower evidenceHash
  | .voteOnSlashAppeal adminSigners borrower voucher approve =>
    QuorumCredit.voteOnSlashAppeal adminSigners borrower voucher approve
  | .executeSlashAppeal borrower voucher => QuorumCredit.executeSlashAppeal borrower voucher

/-- The appeals among the calls on loans and vouches. Balances, guards and the
configuration may change in between. -/
def evidenceAppeals : Component World (List Address) Context Failure EvidenceStore EvidenceOp where
  run := EvidenceOp.run
  context w signers := { w with signers }
  drift w s w' s' := w.now ≤ w'.now ∧ w'.contract = w.contract ∧ s'.core.book = s.core.book ∧
    s'.core.records = s.core.records ∧ s'.core.slashing = s.core.slashing ∧ s'.slashAppeal = s.slashAppeal ∧
    s'.evidenceAppealPending = s.evidenceAppealPending

abbrev EvidenceHistory := List (Situated World EvidenceStore × Event World (List Address) EvidenceStore EvidenceOp)

/-- After `initialize`. -/
def evidenceStart (world : World) (bank : Ledger) : Situated World EvidenceStore :=
  ⟨world, { core := (genesis world bank).store, slashAppeal := fun _ => none, evidenceAppealPending := fun _ => false }⟩

/-! ## What a slash takes, and what its appeals pay -/

/-- What a slash has taken of a voucher's stake, at which rate and in which token, and
what the voucher has been paid for its appeals. -/
structure SlashLoss where
  share : Int
  rate : Int
  token : Address
  paid : List Int

/-- What a slash of `b` takes of the stake of `v`. -/
def lossOf (w : World) (s : Store) (b v : Address) : Option SlashLoss :=
  (s.book.getActiveLoanRecord b).map fun loan =>
    { share := (stakeWith v loan.tokenAddress (s.records b) * slashRate w s.book b).tdiv bpsDenominator
      rate := slashRate w s.book b, token := loan.tokenAddress, paid := [] }

/-- The payment to `v`, made from `s` to `t`, is noted. -/
def SlashLoss.pays (x : SlashLoss) (w : World) (s t : Store) (v : Address) : SlashLoss :=
  { x with
    paid := x.paid ++ [Bank.sent t.bank.log x.token w.contract v - Bank.sent s.bank.log x.token w.contract v] }

/-- The borrower slashed by the call. -/
def EvidenceOp.slashes : EvidenceOp → Option Address
  | .core op => op.executes
  | .executeSlash b => some b
  | _ => none

/-- The borrower and the voucher whose appeal is executed. -/
def EvidenceOp.restores : EvidenceOp → Option (Address × Address)
  | .executeSlashAppeal b v => some (b, v)
  | _ => none

/-- The losses of `v` in slashes of `b`, by the slash's id. An appeal is executed for the
slash that is in the borrower's audit entry. -/
def losses (b v : Address) : EvidenceHistory → Nat → Option SlashLoss :=
  evidenceAppeals.replay (fun s op t before =>
    if op.slashes = some b then
      update before t.core.slashing.slashRecordCounter (lossOf s.world s.store.core b v)
    else if op.restores = some (b, v) then
      match s.store.core.slashing.slashAudit b with
      | some record =>
        update before record.slashId
          ((before record.slashId).map fun x => x.pays s.world s.store.core t.core v)
      | none => before
    else before) fun _ => none

/-- What a slash has taken is paid once and in full, or has not been paid yet. -/
def RestoredOnce (b v : Address) (h : EvidenceHistory) (_ : Situated World EvidenceStore) : Prop :=
  ∀ i, ∀ x ∈ losses b v h i, 0 < x.share → x.paid = [] ∨ x.paid = [x.share]

/-- No appeal has been paid yet, the borrower's latest loan is in the token of the slash,
and what the rate of the slash leaves of the voucher's stake rounds up to what it took. -/
structure SlashLoss.Covered (x : SlashLoss) (s : Store) (b v : Address) : Prop where
  unpaid : x.paid = []
  token : (s.book.getLatestLoanRecord b).map (·.tokenAddress) = some x.token
  above : (x.share - 1) * bpsDenominator < stakeWith v x.token (s.records b) * (bpsDenominator - x.rate)
  within : stakeWith v x.token (s.records b) * (bpsDenominator - x.rate) ≤ x.share * bpsDenominator

/-- An appeal of `v` against a slash of `b` that took something is executed only with the loss covered. -/
def RestoresCovered (b v : Address) (h : EvidenceHistory) (s : Situated World EvidenceStore) (op : EvidenceOp) : Prop :=
  op.restores = some (b, v) → ∀ record ∈ s.store.core.slashing.slashAudit b, ∀ x ∈ losses b v h record.slashId,
    0 < x.share → x.Covered s.store.core b v

/-! ## One call -/

/-- What the rate leaves of a stake, worked out from the part that it takes. -/
theorem rest_eq_iff {stake rate share : Int} (hstake : 0 ≤ stake) (hrate : 0 ≤ rate) :
    stake - (stake * rate).tdiv bpsDenominator = share ↔
      (share - 1) * bpsDenominator < stake * (bpsDenominator - rate) ∧
        stake * (bpsDenominator - rate) ≤ share * bpsDenominator := by
  rw [Int.tdiv_eq_ediv_of_nonneg (Int.mul_nonneg hstake hrate), Int.mul_sub]
  generalize stake * rate = product
  rw [bpsDenominator]
  omega

section Calls

variable {ctx : Context} {s : EvidenceStore}

/-- An appeal executed from `s` to `t`: the payment out of the contract, and nothing else in the core. -/
structure Restored (w : World) (s t : Store) (b v : Address) (loan : LoanRecord) (record : SlashRecord) (rest : Int) :
    Prop where
  latest : s.book.getLatestLoanRecord b = some loan
  audit : s.slashing.slashAudit b = some record
  left : rest = stakeWith v loan.tokenAddress (s.records b) -
    (stakeWith v loan.tokenAddress (s.records b) * record.effectiveSlashBps).tdiv bpsDenominator
  slashing : t.slashing = s.slashing
  records : t.records = s.records
  bank : t.bank = if 0 < rest then s.bank.move loan.tokenAddress w.contract v rest else s.bank

theorem executeSlashAppeal_restored (b v : Address) :
    Yields (executeSlashAppeal b v) ctx s fun _ t =>
      ∃ loan record rest, Restored ctx.toWorld s.core t.core b v loan record rest := by
  simp only [executeSlashAppeal, yields_bind, yields_parts]
  refine (yields_true _ _ _).mono fun _ access _ => ?_
  simp only [setEvidencePending, yields_steps, yields_i128, yields_ite, yields_zoom, yields_pay]
  intro appeal _ _ loan hloan record hrecord _ _
  refine ⟨fun hpos _ _ => ?_, fun hnone => ?_⟩
  · exact ⟨loan, record, _, hloan, hrecord, rfl, rfl, rfl, (if_pos hpos).symm⟩
  · exact ⟨loan, record, _, hloan, hrecord, rfl, rfl, rfl, (if_neg hnone).symm⟩

end Calls

/-- The slash records are those there were, of the same borrowers and at the same rates. -/
structure Refiled (f f' : SlashFiles) : Prop where
  sound : f'.Sound
  records : ∀ i r', f'.record i = some r' →
    ∃ r, f.record i = some r ∧ r'.borrower = r.borrower ∧ r'.effectiveSlashBps = r.effectiveSlashBps

namespace Refiled

variable {f f' : SlashFiles}

theorem of_eq (hf : f.Sound) (h : f' = f) : Refiled f f' := by
  subst h
  exact ⟨hf, fun _ r hr => ⟨r, hr, rfl, rfl⟩⟩

theorem setEscrow (hf : f.Sound) (b : Address) (entry : Option EscrowEntry) : Refiled f (f.setEscrow b entry) :=
  ⟨⟨hf.filed, hf.audited⟩, fun _ r hr => ⟨r, hr, rfl, rfl⟩⟩

theorem put (hf : f.Sound) {i : Nat} {r r' : SlashRecord} (hr : f.record i = some r) (hid : r'.slashId = r.slashId)
    (hb : r'.borrower = r.borrower) (hrate : r'.effectiveSlashBps = r.effectiveSlashBps) :
    Refiled f (f.put i r.borrower r') := by
  refine ⟨hf.put hr hid hb, fun j u hu => ?_⟩
  change update f.record i (some r') j = some u at hu
  rw [update_apply] at hu
  split at hu
  case isTrue hj =>
    cases hu
    exact ⟨r, hj ▸ hr, hb, hrate⟩
  case isFalse => exact ⟨u, hu, rfl, rfl⟩

end Refiled

theorem SlashEffect.refiled {w : World} {s t : Store} {op : Op} (he : SlashEffect w s t op) (hop : op.executes = none)
    (hf : s.files.Sound) : Refiled s.files t.files := by
  cases he with
  | kept _ hfiles | voted _ _ hfiles _ => exact .of_eq hf hfiles
  | repaid hslashing => exact .of_eq hf (congrArg Slashing.files hslashing)
  | executed hexecutes _ =>
    rw [hop] at hexecutes
    cases hexecutes
  | reversed hr _ hfiles _ =>
    rw [hfiles]
    exact .put hf hr rfl rfl rfl
  | released _ _ hfiles _ | appealed _ _ _ hfiles | decided _ _ _ hfiles _ =>
    rw [hfiles]
    exact .setEscrow hf _ _
  | recovered hrecovered =>
    obtain ⟨hborrower, hr⟩ := hf.audited _ _ hrecovered.audit
    rw [hrecovered.files, ← hborrower]
    exact .put hf hr rfl rfl rfl

/-- A slash from `s` to `t` has filed a record at its rate. -/
structure SlashFiled (cfg : Config) (s t : Store) (b : Address) (loan : LoanRecord) (record : SlashRecord)
    (release : Nat) : Prop where
  active : s.book.getActiveLoanRecord b = some loan
  id : record.slashId = s.files.counter + 1
  borrower : record.borrower = b
  rate : record.effectiveSlashBps = effectiveSlashBps cfg (s.book.defaultCount b)
  files : t.files = s.files.addSlash b record release

theorem AuditedSlash.filed {w : World} {s t : Store} {b : Address} {loan : LoanRecord} {record record' : SlashRecord}
    (ha : AuditedSlash w s t b loan record) (hf : Filed w s t b record') :
    SlashFiled w.config s t b loan record' (w.now + slashEscrowPeriod) := by
  have haudit : t.files.audit b = some record' := by
    rw [hf.files]
    exact update_self ..
  obtain rfl := Option.some.inj (ha.audited.filed.symm.trans haudit)
  exact ⟨ha.active, hf.id, hf.borrower, ha.audited.rate, hf.files⟩

/-- What a call that goes through does to the records and to the files of slashes. -/
structure EvidenceEffect (cfg : Config) (s t : Store) (op : EvidenceOp) : Prop where
  wellFormed : (∀ a, WellFormed (s.records a)) → ∀ a, WellFormed (t.records a)
  slashed : ∀ b ∈ op.slashes, ∃ loan record release, SlashFiled cfg s t b loan record release
  refiled : op.slashes = none → s.files.Sound → Refiled s.files t.files

theorem EvidenceEffect.of_kept {cfg : Config} {s t : Store} {op : EvidenceOp} (hop : op.slashes = none)
    (hrecords : t.records = s.records) (hfiles : t.files = s.files) : EvidenceEffect cfg s t op := by
  refine ⟨fun h a => hrecords ▸ h a, fun b hb => ?_, fun _ hf => .of_eq hf hfiles⟩
  rw [hop] at hb
  cases hb

theorem evidenceEffect_core (op : Op) (ctx : Context) (s : Store) :
    Yields (dispatch op) ctx s fun _ t => EvidenceEffect ctx.config s t (.core op) := by
  have hslashed : Yields (dispatch op) ctx s fun _ t => ∀ b ∈ op.executes,
      ∃ loan record release, SlashFiled ctx.config s t b loan record release := by
    intro r t ht b hb
    obtain ⟨loan, record, ha⟩ := executes_audit hb r t ht
    obtain ⟨record', hf⟩ := executes_files hb r t ht
    exact ⟨loan, record', _, ha.filed hf⟩
  refine (((dispatch_vouchEffect op).and hslashed).and (dispatch_slashEffect op)).mono ?_
  rintro - t ⟨⟨hvouch, hslashed⟩, hslash⟩
  exact ⟨hvouch.wellFormed, hslashed, hslash.refiled⟩

theorem evidenceEffect_executeSlash (b : Address) (ctx : Context) (s : Store) :
    Yields (executeSlash b) ctx s fun _ t => EvidenceEffect ctx.config s t (.executeSlash b) := by
  have hdropped : Yields (executeSlash b) ctx s fun _ t => Dropped s.records b t.records :=
    (inferInstance : Stable (Store.Under s.records b) (executeSlash b)).out ctx s (.refl _ _)
  refine (((executeSlash_audit b).and (executeSlash_files b)).and hdropped).mono ?_
  rintro - t ⟨⟨⟨loan, record, ha⟩, record', hf⟩, rest, hrest, ht⟩
  refine ⟨fun h a => ?_, fun a ha' => ?_, fun hnone => by cases hnone⟩
  · rw [ht]
    exact forall_update h ((h b).sublist hrest) a
  · cases ha'
    exact ⟨loan, record', _, ha.filed hf⟩

section

variable {s : Situated World EvidenceStore} {signers : List Address} {op : EvidenceOp} {t : EvidenceStore}

theorem evidenceEffect_of (he : evidenceAppeals.exec s signers op = some t) :
    EvidenceEffect s.world.config s.store.core t.core op := by
  refine Component.exec_yields (Q := fun t => EvidenceEffect s.world.config s.store.core t.core op) ?_ he
  cases op with
  | core op => exact (yields_zoom _ _ _ _).2 (evidenceEffect_core op _ _)
  | executeSlash b => exact (yields_zoom _ _ _ _).2 (evidenceEffect_executeSlash b _ _)
  | appealSlashWithEvidence voucher b evidenceHash =>
    change Yields (appealSlashWithEvidence voucher b evidenceHash) _ _ _
    simp only [appealSlashWithEvidence, yields_bind, yields_requireAuth, yields_parts]
    intro _
    refine (yields_true _ _ _).mono fun _ access _ => ?_
    refine yields_keeps id fun escrow slashing hslashing => ?_
    simp only [setSlashAppeal, setEvidencePending, yields_steps]
    intro _ loan _ _
    exact .of_kept rfl rfl (congrArg Slashing.files hslashing)
  | voteOnSlashAppeal adminSigners b voucher approve =>
    change Yields (voteOnSlashAppeal adminSigners b voucher approve) _ _ _
    simp only [voteOnSlashAppeal, yields_bind, yields_parts]
    refine (yields_true _ _ _).mono fun _ access _ => ?_
    refine yields_keeps id fun _ s' hs' => ?_
    rw [id, id] at hs'
    subst hs'
    simp only [setSlashAppeal, setEvidencePending, yields_steps, yields_ite]
    intro appeal _ _
    exact ⟨fun _ => .of_kept rfl rfl rfl, fun _ => .of_kept rfl rfl rfl⟩
  | executeSlashAppeal b v =>
    refine (executeSlashAppeal_restored b v).mono ?_
    rintro - t ⟨loan, record, rest, hrestored⟩
    exact .of_kept rfl hrestored.records (congrArg Slashing.files hrestored.slashing)

/-! ## Runs -/

variable {b v : Address} {h : EvidenceHistory}

theorem EvidenceOp.slashes_of_restores (hop : op.restores = some (b, v)) : op.slashes = none := by
  cases op with
  | executeSlashAppeal => rfl
  | core | executeSlash | appealSlashWithEvidence | voteOnSlashAppeal => cases hop

theorem losses_slashed (he : evidenceAppeals.exec s signers op = some t) (hop : op.slashes = some b) :
    losses b v ((s, .call signers op) :: h) =
      update (losses b v h) t.core.slashing.slashRecordCounter (lossOf s.world s.store.core b v) := by
  refine (Component.replay_call he _ _ _).trans ?_
  rw [if_pos hop]
  rfl

theorem losses_restored (he : evidenceAppeals.exec s signers op = some t) (hop : op.restores = some (b, v))
    {record : SlashRecord} (haudit : s.store.core.slashing.slashAudit b = some record) :
    losses b v ((s, .call signers op) :: h) = update (losses b v h) record.slashId
      ((losses b v h record.slashId).map fun x => x.pays s.world s.store.core t.core v) := by
  have hnone : op.slashes ≠ some b := by
    rw [EvidenceOp.slashes_of_restores hop]
    exact (Option.some_ne_none b).symm
  refine (Component.replay_call he _ _ _).trans ?_
  rw [if_neg hnone, if_pos hop, haudit]
  rfl

theorem losses_other (he : evidenceAppeals.exec s signers op = some t) (hslashes : op.slashes ≠ some b)
    (hrestores : op.restores ≠ some (b, v)) : losses b v ((s, .call signers op) :: h) = losses b v h := by
  refine (Component.replay_call he _ _ _).trans ?_
  rw [if_neg hslashes, if_neg hrestores]
  rfl

theorem losses_idle {e : Event World (List Address) EvidenceStore EvidenceOp}
    (hnone : evidenceAppeals.done s e = none) : losses b v ((s, e) :: h) = losses b v h :=
  Component.replay_idle hnone _ _ _

theorem stakeWith_nonneg {vouches : List VouchRecord} (hw : WellFormed vouches) (token : Address) :
    0 ≤ stakeWith v token vouches := by
  unfold stakeWith
  cases hfind : findVouchIn v token vouches with
  | none => exact le_rfl
  | some record => exact (hw.staked record (List.mem_of_find?_eq_some hfind)).le

/-- The records of slashes of `b` state the rates of the losses. -/
structure EvidenceBooks (b v : Address) (h : EvidenceHistory) (s : Store) : Prop where
  wellFormed : ∀ a, WellFormed (s.records a)
  sound : s.files.Sound
  losses : ∀ i r, s.files.record i = some r → r.borrower = b → ∃ x, losses b v h i = some x ∧
    x.rate = r.effectiveSlashBps ∧ (0 < x.share → 0 < x.rate)

theorem restored_of (he : evidenceAppeals.exec s signers op = some t) (hop : op.restores = some (b, v)) :
    ∃ loan record rest, Restored s.world s.store.core t.core b v loan record rest := by
  cases op with
  | executeSlashAppeal b' v' =>
    cases hop
    exact Component.exec_yields (Q := fun t => ∃ loan record rest,
      Restored s.world s.store.core t.core b v loan record rest) (executeSlashAppeal_restored b v) he
  | core | executeSlash | appealSlashWithEvidence | voteOnSlashAppeal => cases hop

/-- A call that does not slash `b` leaves the losses but for what is paid. -/
theorem losses_kept (he : evidenceAppeals.exec s signers op = some t) (hslashes : op.slashes ≠ some b)
    {i : Nat} {x : SlashLoss} (hx : losses b v h i = some x) :
    ∃ x', losses b v ((s, .call signers op) :: h) i = some x' ∧ x'.rate = x.rate ∧ x'.share = x.share := by
  by_cases hrestores : op.restores = some (b, v)
  · obtain ⟨loan, record, rest, hrestored⟩ := restored_of he hrestores
    rw [losses_restored he hrestores hrestored.audit, update_apply]
    split
    case isTrue hi =>
      rw [← hi, hx]
      exact ⟨_, rfl, rfl, rfl⟩
    case isFalse => exact ⟨x, hx, rfl, rfl⟩
  · rw [losses_other he hslashes hrestores]
    exact ⟨x, hx, rfl, rfl⟩

/-- What a slash takes is taken at a positive rate. -/
theorem rate_pos {stake rate : Int} (hstake : 0 ≤ stake) (hshare : 0 < (stake * rate).tdiv bpsDenominator) :
    0 < rate := by
  by_contra hrate
  have hproduct : stake * rate ≤ 0 := Int.mul_nonpos_of_nonneg_of_nonpos hstake (Int.not_lt.1 hrate)
  have hnone := Int.tdiv_nonneg (Int.neg_nonneg_of_nonpos hproduct) (show 0 ≤ bpsDenominator by decide)
  rw [Int.neg_tdiv] at hnone
  omega

theorem EvidenceBooks.call (hb : EvidenceBooks b v h s.store.core)
    (he : evidenceAppeals.exec s signers op = some t) : EvidenceBooks b v ((s, .call signers op) :: h) t.core := by
  have heffect := evidenceEffect_of he
  refine ⟨heffect.wellFormed hb.wellFormed, ?_, ?_⟩
  · cases hslashes : op.slashes with
    | none => exact (heffect.refiled hslashes hb.sound).sound
    | some a =>
      obtain ⟨loan, record, release, hfiled⟩ := heffect.slashed a hslashes
      rw [hfiled.files]
      exact hb.sound.addSlash release hfiled.id hfiled.borrower
  · intro i r hr hborrower
    by_cases hown : op.slashes = some b
    · obtain ⟨loan, record, release, hfiled⟩ := heffect.slashed b hown
      have hcounter : t.core.slashing.slashRecordCounter = s.store.core.files.counter + 1 :=
        congrArg SlashFiles.counter hfiled.files
      rw [losses_slashed he hown, hcounter]
      rw [hfiled.files] at hr
      rcases SlashFiles.addSlash_cases hr with ⟨rfl, rfl⟩ | hr
      · have hstake := stakeWith_nonneg (v := v) (hb.wellFormed b) loan.tokenAddress
        have hloss : lossOf s.world s.store.core b v = some
            { share := (stakeWith v loan.tokenAddress (s.store.core.records b) *
                slashRate s.world s.store.core.book b).tdiv bpsDenominator
              rate := slashRate s.world s.store.core.book b, token := loan.tokenAddress, paid := [] } := by
          rw [lossOf, hfiled.active]
          rfl
        exact ⟨_, (update_self ..).trans hloss, hfiled.rate.symm, rate_pos hstake⟩
      · have hi := (hb.sound.filed i r hr).1
        rw [update_of_ne (by omega)]
        exact hb.losses i r hr hborrower
    · -- the record was there before, at the same rate
      have hbefore : ∃ r₀, s.store.core.files.record i = some r₀ ∧ r.borrower = r₀.borrower ∧
          r.effectiveSlashBps = r₀.effectiveSlashBps := by
        cases hslashes : op.slashes with
        | none => exact (heffect.refiled hslashes hb.sound).records i r hr
        | some a =>
          obtain ⟨loan, record, release, hfiled⟩ := heffect.slashed a hslashes
          rw [hfiled.files] at hr
          rcases SlashFiles.addSlash_cases hr with ⟨rfl, rfl⟩ | hr
          · rw [hfiled.borrower] at hborrower
            exact absurd (hborrower ▸ hslashes) hown
          · exact ⟨r, hr, rfl, rfl⟩
      obtain ⟨r₀, hr₀, hborrower₀, hrate₀⟩ := hbefore
      obtain ⟨x, hx, hrate, hpos⟩ := hb.losses i r₀ hr₀ (hborrower₀.symm.trans hborrower)
      obtain ⟨x', hx', hrate', hshare'⟩ := losses_kept he hown hx
      refine ⟨x', hx', ?_, ?_⟩
      · rw [hrate', hrate, hrate₀]
      · rw [hrate', hshare']
        exact hpos

theorem EvidenceBooks.run {world : World} {bank : Ledger}
    (hr : Run evidenceAppeals.Step (evidenceStart world bank) h s) : EvidenceBooks b v h s.store.core := by
  refine Component.inv (I := fun h s => EvidenceBooks b v h s.store.core) ?_ ?_ ?_ hr
  · exact ⟨fun _ => .nil, ⟨fun _ _ hr => (by cases hr), fun _ _ hr => (by cases hr)⟩, fun _ _ hr => (by cases hr)⟩
  · intro h s signers op t _ hb he
    exact hb.call he
  · rintro h s e s' hb hnone (rfl | ⟨-, -, -, hrecords, hslashing, -⟩)
    · exact ⟨hb.wellFormed, hb.sound, by rw [losses_idle hnone]; exact hb.losses⟩
    · have hfiles : s'.store.core.files = s.store.core.files := congrArg Slashing.files hslashing
      refine ⟨fun a => hrecords ▸ hb.wellFormed a, hfiles ▸ hb.sound, ?_⟩
      rw [losses_idle hnone, hfiles]
      exact hb.losses

/-- What an executed appeal adds to the payments. -/
theorem Restored.sent {s t : Store} {w : World} {loan : LoanRecord} {record : SlashRecord} {rest : Int}
    (hr : Restored w s t b v loan record rest) (token : Address) :
    Bank.sent t.bank.log token w.contract v - Bank.sent s.bank.log token w.contract v =
      if loan.tokenAddress = token ∧ 0 < rest then rest else 0 := by
  rw [hr.bank]
  by_cases hpos : 0 < rest
  · rw [if_pos hpos, Bank.sent_move]
    simp only [hpos, and_true]
    omega
  · rw [if_neg hpos, if_neg fun h => hpos h.2, Int.sub_self]

/-- The payment is what the slash took exactly if the loss is covered. -/
theorem Restored.covered_iff {s t : Store} {w : World} {loan : LoanRecord} {record : SlashRecord} {rest : Int}
    (hr : Restored w s t b v loan record rest) (hwell : WellFormed (s.records b)) {x : SlashLoss}
    (hrate : x.rate = record.effectiveSlashBps) (hpos : 0 < x.rate) (hshare : 0 < x.share) :
    (x.pays w s t v).paid = [x.share] ↔ x.Covered s b v := by
  have hexact : loan.tokenAddress = x.token → (rest = x.share ↔
      (x.share - 1) * bpsDenominator < stakeWith v x.token (s.records b) * (bpsDenominator - x.rate) ∧
        stakeWith v x.token (s.records b) * (bpsDenominator - x.rate) ≤ x.share * bpsDenominator) := by
    intro htoken
    rw [hr.left, ← hrate, htoken]
    exact rest_eq_iff (stakeWith_nonneg hwell _) hpos.le
  rw [SlashLoss.pays, hr.sent]
  constructor
  · intro hpaid
    obtain ⟨hnone, hamount⟩ := List.append_eq_singleton_iff.1 hpaid |>.resolve_right fun h => by cases h.2
    obtain hamount := List.cons.inj hamount |>.1
    split at hamount
    case isTrue hpays =>
      obtain ⟨habove, hwithin⟩ := (hexact hpays.1).1 hamount
      exact ⟨hnone, by rw [hr.latest, Option.map_some, hpays.1], habove, hwithin⟩
    case isFalse => omega
  · intro hcovered
    have htoken : loan.tokenAddress = x.token := by
      have hlatest := hcovered.token
      rw [hr.latest] at hlatest
      exact Option.some.inj hlatest
    have hrest := (hexact htoken).2 ⟨hcovered.above, hcovered.within⟩
    rw [hcovered.unpaid, if_pos ⟨htoken, hrest ▸ hshare⟩, hrest]
    rfl

theorem restoredOnce_iff (hb : EvidenceBooks b v h s.store.core) (hp : RestoredOnce b v h s)
    (he : evidenceAppeals.exec s signers op = some t) :
    RestoredOnce b v ((s, .call signers op) :: h) ⟨s.world, t⟩ ↔ RestoresCovered b v h s op := by
  by_cases hrestores : op.restores = some (b, v)
  · obtain ⟨loan, record, rest, hrestored⟩ := restored_of he hrestores
    obtain ⟨hborrower, hfiled⟩ := hb.sound.audited b record hrestored.audit
    obtain ⟨x, hx, hrate, hpos⟩ := hb.losses _ record hfiled hborrower
    have hiff := fun hshare : 0 < x.share => hrestored.covered_iff (hb.wellFormed b) hrate (hpos hshare) hshare
    have hlosses := losses_restored he hrestores (h := h) hrestored.audit
    rw [hx] at hlosses
    constructor
    · intro hafter _ record' hrecord' x' hx' hshare
      obtain rfl := Option.some.inj (hrestored.audit.symm.trans hrecord')
      obtain rfl := Option.some.inj (hx.symm.trans hx')
      have hown : losses b v ((s, .call signers op) :: h) record.slashId =
          some (x.pays s.world s.store.core t.core v) := by
        rw [hlosses]
        exact update_self ..
      rcases hafter _ _ hown hshare with hnone | hpaid
      · exact absurd hnone (List.append_ne_nil_of_right_ne_nil _ (List.cons_ne_nil _ _))
      · exact (hiff hshare).1 hpaid
    · intro hok i x' hx' hshare
      rw [hlosses, update_apply] at hx'
      split at hx'
      case isTrue =>
        cases hx'
        exact .inr ((hiff hshare).2 (hok hrestores record hrestored.audit x hx hshare))
      case isFalse => exact hp i x' hx' hshare
  · refine iff_of_true (fun i x hx => ?_) fun hop => absurd hop hrestores
    by_cases hslashes : op.slashes = some b
    · rw [losses_slashed he hslashes, update_apply] at hx
      split at hx
      case isTrue =>
        obtain ⟨loan, -, rfl⟩ := Option.map_eq_some_iff.1 hx
        exact fun _ => .inl rfl
      case isFalse => exact hp i x hx
    · rw [losses_other he hslashes hrestores] at hx
      exact hp i x hx

/-- In every run, what a slash of `b` has taken of the stake of `v` is paid by executed
appeals once, in full and in its token, if at all, exactly if every appeal that is
executed is the first for its slash and finds the loss covered by a stake of `v` that
stands by then: the latest loan is in the slashed token, and what the rate of the
slash leaves of that stake rounds up to what it took. -/
theorem slash_restored_once_iff {world : World} {bank : Ledger}
    (hr : Run evidenceAppeals.Step (evidenceStart world bank) h s) :
    Always (RestoredOnce b v) h s ↔ Throughout (fun h => evidenceAppeals.WhenDone (RestoresCovered b v h)) h := by
  refine Component.always_iff (fun _ _ hx => by cases hx) ?_ ?_ hr
  · intro h s signers op t hr hp he
    exact restoredOnce_iff (EvidenceBooks.run hr) hp he
  · intro h s e s' hp hnone _ i x hx
    rw [losses_idle hnone] at hx
    exact hp i x hx

end

/-! ## An appeal against a slash -/

/-- Account 2 backs a loan of account 10 with 1000000 in token 100, and half of that is slashed. -/
def halfSlashed : List (List Address × EvidenceOp) :=
  [([2], .core (.vouch 2 10 1000000 100 0)), ([1], .core (.createLoanPool [1] [10] [500000])),
    ([2], .core (.voteSlash 2 10 true)), ([1], .core (.executePendingSlash 10))]

/-- Once the escrow is released, account 2 appeals and the administration approves. -/
def appealApprovedByAdmin : List (List Address × EvidenceOp) :=
  [([1], .core (.releaseSlashEscrow [1] 10)), ([2], .appealSlashWithEvidence 2 10 (.replicate 32 0)),
    ([1], .voteOnSlashAppeal [1] 10 2 true), ([1], .executeSlashAppeal 10 2)]

/-- The calls, 30 days later than what has happened. -/
def monthLater (h : EvidenceHistory) (s : Situated World EvidenceStore) (calls : List (List Address × EvidenceOp)) :
    EvidenceHistory × Situated World EvidenceStore :=
  let later : Situated World EvidenceStore := ⟨s.world.later slashEscrowPeriod, s.store⟩
  (evidenceAppeals.trace later ((s, .elsewhere later.world later.store) :: h) calls, evidenceAppeals.play later calls)

theorem run_monthLater {world : World} {bank : Ledger} {h : EvidenceHistory} {s : Situated World EvidenceStore}
    (hr : Run evidenceAppeals.Step (evidenceStart world bank) h s) (calls : List (List Address × EvidenceOp)) :
    Run evidenceAppeals.Step (evidenceStart world bank) (monthLater h s calls).1 (monthLater h s calls).2 := by
  refine Component.run_play _ (hr.snoc (.elsewhere ?_)) calls
  exact ⟨Nat.le_add_right _ _, rfl, rfl, rfl, rfl, rfl, rfl⟩

def halfSlashedHistory : EvidenceHistory := evidenceAppeals.trace (evidenceStart sampleWorld sampleBank) [] halfSlashed

def halfSlashedState : Situated World EvidenceStore :=
  evidenceAppeals.play (evidenceStart sampleWorld sampleBank) halfSlashed

theorem run_halfSlashed :
    Run evidenceAppeals.Step (evidenceStart sampleWorld sampleBank) halfSlashedHistory halfSlashedState :=
  Component.run_play _ .nil halfSlashed

instance (x : SlashLoss) (s : Store) (b v : Address) : Decidable (x.Covered s b v) :=
  decidable_of_iff (x.paid = [] ∧ (s.book.getLatestLoanRecord b).map (·.tokenAddress) = some x.token ∧
      (x.share - 1) * bpsDenominator < stakeWith v x.token (s.records b) * (bpsDenominator - x.rate) ∧
      stakeWith v x.token (s.records b) * (bpsDenominator - x.rate) ≤ x.share * bpsDenominator)
    ⟨fun ⟨hunpaid, htoken, habove, hwithin⟩ => ⟨hunpaid, htoken, habove, hwithin⟩,
      fun h => ⟨h.unpaid, h.token, h.above, h.within⟩⟩

instance (b v : Address) (h : EvidenceHistory) (s : Situated World EvidenceStore) (op : EvidenceOp) :
    Decidable (RestoresCovered b v h s op) := inferInstanceAs (Decidable (_ → _))

/-- Account 2 vouches with 1000000 once more, and its appeal pays the 500000 that were slashed. -/
theorem slash_restored_once_staked :
    ∃ h s, Run evidenceAppeals.Step (evidenceStart sampleWorld sampleBank) h s ∧
      (losses 10 2 h 1).map (·.paid) = some [500000] ∧ Always (RestoredOnce 10 2) h s := by
  have hr := run_monthLater run_halfSlashed
    (([2], .core (.vouch 2 10 1000000 100 0)) :: appealApprovedByAdmin)
  exact ⟨_, _, hr, by decide +kernel, (slash_restored_once_iff hr).2 (by decide +kernel)⟩

/-- Without that the appeal goes through and pays nothing. -/
theorem slash_not_restored : ¬ ∀ (b v : Address) (h : EvidenceHistory) (s : Situated World EvidenceStore),
    Run evidenceAppeals.Step (evidenceStart sampleWorld sampleBank) h s → RestoredOnce b v h s := by
  intro hall
  have hr := run_monthLater run_halfSlashed appealApprovedByAdmin
  have hloss : (losses 10 2 (monthLater halfSlashedHistory halfSlashedState appealApprovedByAdmin).1 1).any
      (fun x => x.share = 500000 ∧ x.paid = [0]) = true := by decide +kernel
  obtain ⟨x, hx, hnothing⟩ := (Option.any_eq_true _ _).1 hloss
  obtain ⟨hshare, hpaid⟩ := of_decide_eq_true hnothing
  rcases hall 10 2 _ _ hr 1 x hx (by omega) with hnone | hfull
  · rw [hpaid] at hnone
    cases hnone
  · rw [hpaid, hshare] at hfull
    cases hfull

end QuorumCredit
