import QuorumCredit.Repayable
import QuorumCredit.Reads
import QuorumCredit.Indexes
/-!
# What a settlement leaves behind

The calls that take a payment on a loan or settle its vouches: `repay`, the two
slashes of `lib.rs`, `claim_expired_loan`, and the execution of an approved
slash. `Resolved` says of each what it has found and the vault it leaves.
-/

open Host Function

namespace QuorumCredit

/-! ## What is stored and paid -/

namespace Vouching

/-- `stats.total_vouches_slashed += 1; stats.total_slashed += slash_amount`. -/
def strike (x : Vouching) (voucher : Address) (slashAmount : Int) : Vouching :=
  x.setStats voucher
    { x.statsOf voucher with
      totalVouchesSlashed := (x.statsOf voucher).totalVouchesSlashed + 1
      totalSlashed := (x.statsOf voucher).totalSlashed + slashAmount }

/-- Every record's voucher slashed at rate `bps`, one record after the other. -/
def strikeAll (x : Vouching) (bps : Int) : List VouchRecord → Vouching
  | [] => x
  | v :: vs => (x.strike v.voucher ((v.stake * bps).tdiv bpsDenominator)).strikeAll bps vs

end Vouching

/-- The records in other tokens. -/
def foreign (token : Address) (vouches : List VouchRecord) : List VouchRecord :=
  vouches.filter fun v => v.token ≠ token

/-- What a slash pays back: the rest of the stakes in the loan's token, and all of the others. -/
def seizures (w : World) (token : Address) (bps : Int) (vouches : List VouchRecord) : List (Transfer Address Address) :=
  vouches.filterMap fun v =>
    if v.token = token then
      if 0 < v.stake - (v.stake * bps).tdiv bpsDenominator
      then some (w.payment v.token v.voucher (v.stake - (v.stake * bps).tdiv bpsDenominator)) else none
    else if w.isZeroAddress v.token = false then some (w.payment v.token v.voucher v.stake) else none

/-- What `slash` and `auto_slash` pay back, in the protocol's token. -/
def remainders (w : World) (vouches : List VouchRecord) : List (Transfer Address Address) :=
  vouches.filterMap fun v =>
    if 0 < v.stake - (v.stake * w.config.slashBps).tdiv 10000
    then some (w.payment w.config.token v.voucher (v.stake - (v.stake * w.config.slashBps).tdiv 10000)) else none

namespace Vault

/-- The vault after the stakes behind a loan in `token` are seized at rate `bps`. -/
def seized (x : Vault) (w : World) (token : Address) (bps : Int) (b : Address) : Vault :=
  let y := x.vouching.strikeAll bps (inToken token (x.records b))
  { bank := x.bank.moves (seizures w token bps (x.records b))
    vouching := if foreign token (x.records b) = [] then y.removeVouches b else y.setVouches b
      (foreign token (x.records b)) }

end Vault

/-! ## The effect -/

/-- What a call that takes a payment or settles the vouches of `b` leaves. -/
inductive Resolved (w : World) (s t : Store) : Op → Prop
  | paid {b n loan} : s.book.loanToRepay b = some loan → loan.status ≠ .defaulted → n < loan.outstandingAt w.now →
      t.vault = s.vault.takes w loan b n → Resolved w s t (.repay b n)
  | closed {b n loan} : s.book.loanToRepay b = some loan → loan.status ≠ .defaulted → n = loan.outstandingAt w.now →
      t.vault = (s.vault.takes w loan b n).settled w (loan.paidAt w.now n) b (s.locked loan.id) 0 →
      Resolved w s t (.repay b n)
  | recovered {b n loan} : s.book.loanToRepay b = some loan → loan.status = .defaulted →
      t.vault.vouching = s.vault.vouching → Resolved w s t (.repay b n)
  | slashed {op b loan} : (∃ signers, op = .slash signers b) ∨ op = .autoSlash b →
      s.book.getActiveLoanRecord b = some loan → loan.repaid = false → loan.defaulted = false →
      t.vault =
        { bank := s.vault.bank.moves (remainders w (s.records b))
          vouching := s.vault.vouching.removeVouches b } →
      Resolved w s t op
  | returned {b loan} : s.book.getActiveLoanRecord b = some loan → loan.repaid = false → loan.defaulted = false →
      t.vault =
        { bank := s.vault.bank.moves ((s.records b).map fun v => w.payment w.config.token v.voucher v.stake)
          vouching := s.vault.vouching.removeVouches b } →
      Resolved w s t (.claimExpiredLoan b)
  | executed {op b loan} : op.executes = some b → s.book.getActiveLoanRecord b = some loan → loan.status ≠ .defaulted →
      t.vault = (s.vault.seized w loan.tokenAddress (slashRate w s.book b) b).drained w b → Resolved w s t op

/-! ## One call at a time -/

section Calls

variable {ctx : Context} {s : Store}

theorem processWithdrawalQueue_spec (b : Address) (x : Vault) :
    Yields (processWithdrawalQueue b) ctx x fun _ y => y = x.drained ctx.toWorld b := by
  intro u y hrun
  exact ((goes_processWithdrawalQueue b ctx x fun _ z => y = z).1 (.of_run hrun rfl)).2

theorem returnRemainders_spec (vouches : List VouchRecord) (bank : Ledger) :
    Yields (returnRemainders vouches) ctx bank fun _ bank' => bank' = bank.moves (remainders ctx.toWorld vouches) := by
  induction vouches generalizing bank with
  | nil => simp [returnRemainders, remainders]
  | cons v vs ih =>
    simp only [returnRemainders, slashShare, yields_steps, yields_i128, yields_ite, yields_pay]
    refine fun _ _ => ⟨fun hpos _ _ => ?_, fun hnone => ?_⟩
    · have hcons : remainders ctx.toWorld (v :: vs) =
          ctx.toWorld.payment ctx.config.token v.voucher (v.stake - (v.stake * ctx.config.slashBps).tdiv 10000) ::
            remainders ctx.toWorld vs := List.filterMap_cons_some (if_pos hpos)
      rw [hcons]
      exact ih _
    · have hcons : remainders ctx.toWorld (v :: vs) = remainders ctx.toWorld vs :=
        List.filterMap_cons_none (if_neg hnone)
      rw [hcons]
      exact ih bank

theorem returnStakes_spec (vouches : List VouchRecord) (bank : Ledger) :
    Yields (returnStakes vouches) ctx bank fun _ bank' =>
      bank' = bank.moves (vouches.map fun v => ctx.toWorld.payment ctx.config.token v.voucher v.stake) := by
  induction vouches generalizing bank with
  | nil => simp [returnStakes]
  | cons v vs ih =>
    simp only [returnStakes, yields_steps, yields_pay]
    exact fun _ _ => ih _

instance {γ : Type} {f : Ledger → γ} (acc : Int) (vouches : List VouchRecord) :
    Keeps f (totalSlashShare acc vouches) := by
  induction vouches generalizing acc with
  | nil => unfold totalSlashShare; infer_instance
  | cons v vs ih => unfold totalSlashShare slashShare; infer_instance

theorem slashAll_spec (b : Address) (x : Vault) :
    Yields (slashAll b) ctx x fun _ y =>
      y = { bank := x.bank.moves (remainders ctx.toWorld (x.records b)), vouching := x.vouching.removeVouches b } := by
  simp only [slashAll, yields_steps, yields_parts]
  refine yields_keeps id fun _ bank hbank => ?_
  rw [id, id] at hbank
  subst hbank
  refine (returnRemainders_spec _ _).mono ?_
  rintro - bank rfl
  rfl

theorem returnAll_spec (b : Address) (x : Vault) :
    Yields (returnAll b) ctx x fun _ y =>
      y = { bank := x.bank.moves ((x.records b).map fun v => ctx.toWorld.payment ctx.config.token v.voucher v.stake)
            vouching := x.vouching.removeVouches b } := by
  simp only [returnAll, yields_steps, yields_parts]
  refine (returnStakes_spec _ _).mono ?_
  rintro - bank rfl
  rfl

theorem seizeStake_vault (bps : Int) (v : VouchRecord) (x : Vault) :
    Yields (seizeStake bps v) ctx x fun _ y =>
      y = { bank := x.bank.moves (seizures ctx.toWorld v.token bps [v])
            vouching := x.vouching.strikeAll bps [v] } := by
  simp only [seizeStake, addSlashed, yields_steps, yields_i128, yields_ite, yields_pay, yields_parts]
  refine fun _ _ => ⟨fun hpos _ _ _ => ?_, fun hnone _ => ?_⟩
  · have hone : seizures ctx.toWorld v.token bps [v] =
        [ctx.toWorld.payment v.token v.voucher (v.stake - (v.stake * bps).tdiv bpsDenominator)] := by
      simp only [seizures, List.filterMap_cons, List.filterMap_nil, if_true, hpos]
    rw [hone]
    rfl
  · have hone : seizures ctx.toWorld v.token bps [v] = [] := by
      simp only [seizures, List.filterMap_cons, List.filterMap_nil, if_true, hnone, if_false]
    rw [hone]
    rfl

theorem seizeStakes_vault (token : Address) (bps total : Int) (remaining vouches : List VouchRecord) (x : Vault) :
    Yields (seizeStakes token bps total remaining vouches) ctx x fun r y =>
      r.2 = remaining ++ foreign token vouches ∧
        y = { bank := x.bank.moves (seizures ctx.toWorld token bps vouches)
              vouching := x.vouching.strikeAll bps (inToken token vouches) } := by
  induction vouches generalizing total remaining x with
  | nil => simp [seizeStakes, seizures, foreign, inToken, Vouching.strikeAll]
  | cons v vs ih =>
    have hsplit : seizures ctx.toWorld token bps (v :: vs) =
        seizures ctx.toWorld token bps [v] ++ seizures ctx.toWorld token bps vs := List.filterMap_append (l := [v])
    simp only [seizeStakes, yields_ite, yields_steps, yields_i128, yields_parts, yields_pay]
    refine ⟨fun htoken => ?_, fun htoken => ?_⟩
    · have hforeign : foreign token (v :: vs) = v :: foreign token vs := List.filter_cons_of_pos (by simpa using htoken)
      have hother : inToken token (v :: vs) = inToken token vs := List.filter_cons_of_neg (by simpa using htoken)
      rw [hforeign, hother, hsplit, Bank.moves_append]
      refine ⟨fun hnonzero _ _ => ?_, fun hzero => ?_⟩
      · refine (ih _ _ _).mono fun r y h => ?_
        rw [List.append_assoc] at h
        have hone : seizures ctx.toWorld token bps [v] = [ctx.toWorld.payment v.token v.voucher v.stake] := by
          simp only [seizures, List.filterMap_cons, List.filterMap_nil, htoken, if_false, hnonzero, if_true]
        rw [hone]
        exact h
      · refine (ih _ _ _).mono fun r y h => ?_
        rw [List.append_assoc] at h
        have hone : seizures ctx.toWorld token bps [v] = [] :=
          List.filterMap_cons_none (by rw [if_neg htoken, if_neg hzero])
        rw [hone]
        exact h
    · have htoken : v.token = token := not_not.1 htoken
      subst htoken
      have hforeign : foreign v.token (v :: vs) = foreign v.token vs := List.filter_cons_of_neg (by simp)
      have hown : inToken v.token (v :: vs) = v :: inToken v.token vs := List.filter_cons_of_pos (by simp)
      rw [hforeign, hown, hsplit, Bank.moves_append]
      refine (seizeStake_vault bps v x).mono ?_
      rintro share _ rfl _
      exact ih _ _ _

theorem slashVouches_spec (b token : Address) (bps : Int) (x : Vault) :
    Yields (slashVouches b token bps) ctx x fun _ y => y = x.seized ctx.toWorld token bps b := by
  simp only [slashVouches, yields_steps]
  refine (seizeStakes_vault _ _ _ _ _ _).mono ?_
  rintro ⟨total, rest⟩ _ ⟨rfl, rfl⟩
  simp only [List.nil_append]
  rfl

theorem executeSlash_vault (b : Address) :
    Yields (executeSlash b) ctx s fun _ t => ∃ loan, s.book.getActiveLoanRecord b = some loan ∧
      loan.status ≠ .defaulted ∧
      t.vault = (s.vault.seized ctx.toWorld loan.tokenAddress (slashRate ctx.toWorld s.book b)
        b).drained ctx.toWorld b := by
  unfold executeSlash
  simp only [yields_steps]
  refine yields_keeps₂ Store.book Store.vault fun _ s₁ hbook hvault loan hloan hstatus => ?_
  refine yields_keeps id fun _ s₂ h₂ => ?_
  rw [id, id] at h₂
  subst h₂
  simp only [yields_parts]
  refine (slashVouches_spec _ _ _ _).mono ?_
  rintro total _ rfl
  refine (yields_true _ _ _).mono fun _ k _ => ?_
  refine (yields_true _ _ _).mono fun _ x _ => ?_
  refine (processWithdrawalQueue_spec _ _).mono ?_
  rintro - _ rfl
  rw [hbook] at hloan
  refine ⟨loan, hloan, hstatus, ?_⟩
  change ((s₂.vault).seized ctx.toWorld loan.tokenAddress (slashRate ctx.toWorld s₂.book b) b).drained ctx.toWorld b = _
  rw [hbook, hvault]

/-- What the settlements of `lib.rs` find before they settle. -/
def Unsettled (k : LoanBook) (b : Address) : Prop :=
  ∃ loan, k.getActiveLoanRecord b = some loan ∧ loan.repaid = false ∧ loan.defaulted = false

theorem slash_vault (signers : List Address) (b : Address) :
    Yields (slash signers b) ctx s fun _ t => Unsettled s.book b ∧
      t.vault = { bank := s.vault.bank.moves (remainders ctx.toWorld (s.records b))
                  vouching := s.vault.vouching.removeVouches b } := by
  simp only [slash, requireUnsettled, yields_steps]
  refine yields_keeps₂ Store.book Store.vault fun _ s₁ hbook₁ hvault₁ => ?_
  refine yields_keeps₂ Store.book Store.vault fun _ s₂ hbook₂ hvault₂ loan hloan hopen => ?_
  have hbook : s₂.book = s.book := hbook₂.trans hbook₁
  have hvault : s₂.vault = s.vault := hvault₂.trans hvault₁
  refine (yields_zoom _ _ _ _).2 ((slashAll_spec b _).mono ?_)
  rintro total _ rfl
  refine yields_keeps Store.vault fun _ s₃ h₃ => yields_keeps Store.vault fun _ s₄ h₄ _ => ?_
  refine yields_keeps Store.vault fun _ t ht => ?_
  rw [hbook] at hloan
  refine ⟨⟨loan, hloan, hopen⟩, ?_⟩
  rw [ht, h₄, h₃]
  change Vault.mk (s₂.vault.bank.moves (remainders ctx.toWorld (s₂.vault.records b)))
    (s₂.vault.vouching.removeVouches b) = _
  rw [hvault]
  rfl

theorem autoSlash_vault (b : Address) :
    Yields (autoSlash b) ctx s fun _ t => Unsettled s.book b ∧
      t.vault = { bank := s.vault.bank.moves (remainders ctx.toWorld (s.records b))
                  vouching := s.vault.vouching.removeVouches b } := by
  simp only [autoSlash, yields_steps]
  intro loan hloan hrepaid hdefaulted _
  refine yields_keeps Store.vault fun _ s₁ h₁ => ?_
  refine (yields_zoom _ _ _ _).2 ((slashAll_spec b _).mono ?_)
  rintro total _ rfl
  refine yields_keeps Store.vault fun _ t ht _ => ?_
  refine ⟨⟨loan, hloan, hrepaid, hdefaulted⟩, ?_⟩
  rw [ht]
  change Vault.mk (s₁.vault.bank.moves (remainders ctx.toWorld (s₁.vault.records b)))
    (s₁.vault.vouching.removeVouches b) = _
  rw [h₁]
  rfl

theorem claimExpiredLoan_vault (b : Address) :
    Yields (claimExpiredLoan b) ctx s fun _ t => Unsettled s.book b ∧
      t.vault = { bank := s.vault.bank.moves
                    ((s.records b).map fun v => ctx.toWorld.payment ctx.config.token v.voucher v.stake)
                  vouching := s.vault.vouching.removeVouches b } := by
  simp only [claimExpiredLoan, requireUnsettled, yields_steps, yields_requireAuth]
  intro _ loan hloan hopen _
  refine (yields_zoom _ _ _ _).2 ((returnAll_spec b _).mono ?_)
  rintro total _ rfl
  refine yields_keeps Store.vault fun _ t ht => ?_
  exact ⟨⟨loan, hloan, hopen⟩, ht⟩

/-- A payment on a defaulted loan leaves the vouches alone. -/
theorem repay_recovers {b : Address} {payment : Int} {loan : LoanRecord} (ho : s.book.loanToRepay b = some loan)
    (hdefaulted : loan.status = .defaulted) :
    Yields (repay b payment) ctx s fun _ t => t.vault.vouching = s.vault.vouching := by
  simp only [repay_eq, yields_steps]
  refine yields_keeps₂ Store.book Store.vault fun _ s₁ hbook hvault => ?_
  refine (takePayment_outcome (hbook ▸ ho) payment ctx).mono ?_
  rintro taken s₂ ⟨rfl, hvault₂, -⟩
  have htaken : s₂.vault.vouching = s.vault.vouching := by
    rw [hvault₂, hvault]
    rfl
  rw [← htaken]
  simp only [hdefaulted, settlePayment, yields_steps, decide_true, if_true]
  refine yields_keeps (Store.view id) fun _ s₃ h₃ => ?_
  rw [show s₂.vault.vouching = s₃.vault.vouching from h₃.symm]
  refine (yields_ite _ _ _ _ _ _).2 ⟨fun _ => ?_, fun _ => ?_⟩
  · simp only [yields_bind]
    refine yields_keeps (Store.view id) fun _ s₄ h₄ => ?_
    refine yields_keeps (Store.view id) fun _ s₅ h₅ => yields_keeps (Store.view id) fun _ t ht => ?_
    exact ht.trans (h₅.trans h₄)
  · exact yields_keeps (Store.view id) fun _ s₅ h₅ => yields_keeps (Store.view id) fun _ t ht => ht.trans h₅

end Calls

/-! ## All of them -/

/-- A payment is taken from a loan, and completes it if it is all that is open. -/
theorem repay_resolved {s : State} (hs : s.store.book.Solid) (hk : s.store.book.Keyed) {signers : List Address}
    {b : Address} {payment : Int} {t : Store} (h : exec ⟨signers, .repay b payment⟩ s = .ok t) :
    Resolved s.world s.store t (.repay b payment) := by
  obtain ⟨loan, ho⟩ : ∃ loan, s.store.book.loanToRepay b = some loan := by
    have hfound : Yields (repay b payment) ⟨s.world, signers⟩ s.store fun _ _ =>
        ∃ loan, s.store.book.loanToRepay b = some loan := by
      simp only [repay_eq, takePayment, yields_bind, yields_ask, yields_look, yields_orFail]
      refine yields_keeps Store.book fun _ s₁ h₁ loan hloan => ?_
      rw [h₁] at hloan
      iterate 7 refine (yields_true _ _ _).mono fun _ _ _ => ?_
      exact ⟨loan, hloan⟩
    exact yields_exec (c := ⟨signers, .repay b payment⟩) hfound h
  by_cases hdefaulted : loan.status = .defaulted
  · exact .recovered ho hdefaulted (yields_exec (c := ⟨signers, .repay b payment⟩) (repay_recovers ho hdefaulted) h)
  · have hgoes : Goes (repay b payment) ⟨s.world, signers⟩ s.store fun _ t' => t.vault = t'.vault :=
      (goes_of_exec h).mono fun _ _ ht => congrArg Store.vault ht.symm
    obtain ⟨hl, -⟩ := hk.loan_to_repay ho
    obtain ⟨-, hpayable, hto⟩ := (goes_repay_open ho hdefaulted (hs _ _ hl) fun x => t.vault = x).1 hgoes
    rcases hpayable.within.lt_or_eq with hopen | hall
    · exact .paid ho hdefaulted hopen (hto.stillOpen hopen)
    · exact .closed ho hdefaulted hall (hto.completes hall).2

theorem executes_vault {c : Call} {s : State} {t : Store} {b : Address} (hc : c.op.executes = some b)
    (h : exec c s = .ok t) : ∃ loan, s.store.book.getActiveLoanRecord b = some loan ∧ loan.status ≠ .defaulted ∧
      t.vault = (s.store.vault.seized s.world loan.tokenAddress (slashRate s.world s.store.book b)
        b).drained s.world b := by
  obtain ⟨approve, -, hbook, hvault, hdispatch⟩ := dispatch_executes hc
  have hrun : Yields (dispatch c.op) (s.context c) s.store fun _ t => ∃ loan,
      s.store.book.getActiveLoanRecord b = some loan ∧ loan.status ≠ .defaulted ∧
        t.vault = (s.store.vault.seized s.world loan.tokenAddress (slashRate s.world s.store.book b) b).drained
          s.world b := by
    rw [hdispatch, yields_bind]
    refine yields_keeps₂ Store.book Store.vault fun _ s₁ h₁ h₁' => ?_
    rw [← h₁, ← h₁']
    exact executeSlash_vault b
  exact yields_exec hrun h

/-- What a call that takes a payment or settles a loan leaves. -/
theorem resolved_of {s : State} (hs : s.store.book.Solid) (hk : s.store.book.Keyed) {c : Call} {t : Store} {b : Address}
    (h : exec c s = .ok t) (hop : c.op.resolves = some b) : Resolved s.world s.store t c.op := by
  obtain ⟨signers, op⟩ := c
  cases op with
  | repay b n => exact repay_resolved hs hk h
  | slash admins b =>
    obtain ⟨⟨loan, hloan, hrepaid, hdefaulted⟩, hvault⟩ :=
      yields_exec (c := ⟨signers, .slash admins b⟩) (slash_vault admins b) h
    exact .slashed (.inl ⟨admins, rfl⟩) hloan hrepaid hdefaulted hvault
  | autoSlash b =>
    obtain ⟨⟨loan, hloan, hrepaid, hdefaulted⟩, hvault⟩ :=
      yields_exec (c := ⟨signers, .autoSlash b⟩) (autoSlash_vault b) h
    exact .slashed (.inr rfl) hloan hrepaid hdefaulted hvault
  | claimExpiredLoan b =>
    obtain ⟨⟨loan, hloan, hrepaid, hdefaulted⟩, hvault⟩ :=
      yields_exec (c := ⟨signers, .claimExpiredLoan b⟩) (claimExpiredLoan_vault b) h
    exact .returned hloan hrepaid hdefaulted hvault
  | executeSlashVote b | executePendingSlash b =>
    obtain ⟨loan, hloan, hstatus, hvault⟩ := executes_vault rfl h
    exact .executed rfl hloan hstatus hvault
  | _ => cases hop

end QuorumCredit
