import QuorumCredit.Draining
import QuorumCredit.LazySlash
/-!
# What a slash does with each record

`execute_slash` seizes its share of every record in the loan's token and drops
the record. A record in another token it pays back in full and keeps on the list;
the withdrawal queue, processed at the end, then takes it out, pays it once more,
or leaves it to be paid again later.
-/

open Host Function

namespace QuorumCredit

/-! ## Settling once -/

/-- What the call from `s` to `t` pays out of the stakes in the token: all that it
pays in it, less the shares of the priority fees. -/
def stakesPaid (w : World) (b : Address) (s t : Store) (token : Address) : Int :=
  Bank.outgo t.bank.log token - Bank.outgo s.bank.log token - feesSent w b s.vault t.vault token

/-- What the audit entry of the slash states as slashed, all of it in the loan's token. -/
def Store.slashedIn (t : Store) (b loanToken token : Address) : Int :=
  if loanToken = token then ((t.slashing.slashAudit b).map (·.totalSlashed)).getD 0 else 0

/-- From `s` to `t` a slash of `b` settles every record once: in each token what
stays recorded, what is paid and what is slashed come to the stakes before, and
no record that stays has been paid. -/
structure SettledOnce (w : World) (b loanToken : Address) (s t : Store) : Prop where
  balanced : ∀ token, plainStake token (t.records b) + stakesPaid w b s t token + t.slashedIn b loanToken token =
    plainStake token (s.records b)
  unpaid : ∀ v ∈ t.records b, stakeSent w b s.vault t.vault v.voucher v.token = 0

/-- The records in other tokens than the loan's are settled once: one the slash
pays back is taken out by the queue and not paid again, one in the zero address,
which the slash does not pay, is paid by the queue or stays. -/
def ForeignOnce (w : World) (queue : List QueuedWithdrawal) (vouches : List VouchRecord) : Prop :=
  ∀ v ∈ vouches,
    if w.isZeroAddress v.token = true then w.Allows v.token ∨ ¬ v.TakenOut queue vouches
    else ¬ w.Allows v.token ∧ v.TakenOut queue vouches

instance (w : World) (queue : List QueuedWithdrawal) (vouches : List VouchRecord) :
    Decidable (ForeignOnce w queue vouches) := inferInstanceAs (Decidable (∀ v ∈ vouches, _))

/-! ## The seizures -/

section

variable (w : World) (loanToken token : Address) {bps : Int} {vouches : List VouchRecord}

/-- At a rate within bounds a stake is not exceeded by its slashed share. -/
theorem seizedShare_le (hbps : bps ≤ 10000) {v : VouchRecord} (hv : 0 < v.stake) : seizedShare bps v ≤ v.stake := by
  have hle : v.stake * bps ≤ v.stake * bpsDenominator := Int.mul_le_mul_of_nonneg_left hbps hv.le
  have hmono : (v.stake * bps).tdiv bpsDenominator ≤ (v.stake * bpsDenominator).tdiv bpsDenominator :=
    Int.tdiv_le_tdiv (by decide) hle
  rwa [Int.mul_tdiv_cancel _ (by decide)] at hmono

/-- In the loan's token the seizures pay what the slashed shares leave, in the
others all stakes, but for those in the zero address. -/
theorem outgo_seizures (hbps : bps ≤ 10000) (hstakes : ∀ v ∈ vouches, 0 < v.stake) :
    Bank.outgo (seizures w loanToken bps vouches) token =
      if loanToken = token then plainStake token vouches - ((inToken loanToken vouches).map (seizedShare bps)).sum
      else if w.isZeroAddress token = true then 0 else plainStake token vouches := by
  induction vouches with
  | nil => simp [seizures, inToken, plainStake_nil]
  | cons v vs ih =>
    obtain ⟨hv, hrest⟩ := List.forall_mem_cons.1 hstakes
    have ih := ih hrest
    have hsplit : seizures w loanToken bps (v :: vs) = seizures w loanToken bps [v] ++ seizures w loanToken bps vs :=
      List.filterMap_append (l := [v])
    rw [hsplit, Bank.outgo_append, ih, plainStake_cons, VouchRecord.stakeIn]
    by_cases hown : v.token = loanToken
    · have hshare := seizedShare_le hbps hv
      have hfirst : inToken loanToken (v :: vs) = v :: inToken loanToken vs :=
        List.filter_cons_of_pos (by simpa using hown)
      have hone : Bank.outgo (seizures w loanToken bps [v]) token =
          if loanToken = token then v.stake - seizedShare bps v else 0 := by
        unfold seizures
        by_cases hleft : 0 < v.stake - seizedShare bps v
        · rw [List.filterMap_cons_some (by rw [if_pos hown]; exact if_pos hleft), List.filterMap_nil, Bank.outgo_cons,
            Bank.outgo_nil, Int.add_zero, payment_token, hown]
          rfl
        · rw [List.filterMap_cons_none (by rw [if_pos hown]; exact if_neg hleft), List.filterMap_nil, Bank.outgo_nil]
          split
          · omega
          · rfl
      rw [hone, hfirst, List.map_cons, List.sum_cons, hown]
      split
      · omega
      · split
        · omega
        · omega
    · have hfirst : inToken loanToken (v :: vs) = inToken loanToken vs :=
        List.filter_cons_of_neg (by simpa using hown)
      have hone : Bank.outgo (seizures w loanToken bps [v]) token =
          if w.isZeroAddress v.token = true then 0 else if v.token = token then v.stake else 0 := by
        unfold seizures
        by_cases hzero : w.isZeroAddress v.token = true
        · rw [List.filterMap_cons_none (by rw [if_neg hown]; simp [hzero]), List.filterMap_nil, Bank.outgo_nil,
            if_pos hzero]
        · rw [List.filterMap_cons_some (by rw [if_neg hown]; exact if_pos (Bool.eq_false_of_not_eq_true hzero)),
            List.filterMap_nil, Bank.outgo_cons, Bank.outgo_nil, Int.add_zero, payment_token, if_neg hzero]
          rfl
      rw [hone, hfirst]
      by_cases htoken : v.token = token
      · subst htoken
        have hother : ¬ loanToken = v.token := fun h => hown h.symm
        simp only [hother, if_false, if_true]
        split
        · omega
        · omega
      · simp only [htoken, if_false, ite_self, Int.zero_add]

/-- A record that stays gets nothing from the seizures where its token is the zero address. -/
theorem sent_seizures_zero {u : Address} (hother : token ≠ loanToken) (hzero : w.isZeroAddress token = true) :
    Bank.sent (seizures w loanToken bps vouches) token w.contract u = 0 := by
  refine Bank.sent_eq_zero fun p hp hto => ?_
  obtain ⟨v, -, hpaid⟩ := List.mem_filterMap.1 hp
  split at hpaid
  case isTrue hown =>
    split at hpaid
    · cases hpaid
      exact hother (hto.1.symm.trans hown)
    · cases hpaid
  case isFalse =>
    split at hpaid
    case isTrue hnonzero =>
      cases hpaid
      obtain ⟨htoken, -⟩ := hto
      change v.token = token at htoken
      rw [htoken, hzero] at hnonzero
      cases hnonzero
    case isFalse => cases hpaid

end

/-! ## The whole slash -/

section Calls

variable {ctx : Context} {s : Store}

theorem slashVouches_total (b loanToken : Address) (bps : Int) (x : Vault) :
    Yields (slashVouches b loanToken bps) ctx x fun total _ =>
      total = ((inToken loanToken (x.records b)).map (seizedShare bps)).sum := by
  have hspec : Yields (seizeStakes loanToken bps 0 [] (x.records b)) ctx x fun r _ =>
      r.1 = ((inToken loanToken (x.records b)).map (seizedShare bps)).sum := by
    intro r y hrun
    have hgoes : Goes (seizeStakes loanToken bps 0 [] (x.records b)) ctx x fun r' _ => r' = r := .of_run hrun rfl
    obtain ⟨-, -, hr⟩ := (goes_trySeizeStakes 0 [] (x.records b) x _).1 ((goes_seizeStakes 0 [] _ x _).1 hgoes)
    rw [← hr, Int.zero_add]
  simp only [slashVouches, yields_steps]
  refine hspec.mono ?_
  rintro ⟨total, rest⟩ y rfl
  simp only

/-- The audit entry of a slash: the shares of the stakes in the loan's token, and the rate. -/
structure Audited (x : Slashing) (b : Address) (total bps : Int) (record : SlashRecord) : Prop where
  filed : x.slashAudit b = some record
  total : record.totalSlashed = total
  rate : record.effectiveSlashBps = bps

theorem recordSlash_audit (loan : LoanRecord) (b : Address) (total bps : Int) (x : Slashing) :
    Yields (recordSlash loan b total bps) ctx x fun _ y => ∃ record, Audited y b total bps record := by
  simp only [recordSlash, nextSlashId, yields_steps, yields_u64]
  exact fun _ _ => ⟨_, update_self .., rfl, rfl⟩

/-- A slash leaves the audit entry of the borrower's active loan. -/
structure AuditedSlash (w : World) (s t : Store) (b : Address) (loan : LoanRecord) (record : SlashRecord) : Prop where
  active : s.book.getActiveLoanRecord b = some loan
  audited : Audited t.slashing b
    ((inToken loan.tokenAddress (s.records b)).map (seizedShare (slashRate w s.book b))).sum
    (slashRate w s.book b) record

theorem executeSlash_audit (b : Address) :
    Yields (executeSlash b) ctx s fun _ t => ∃ loan record, AuditedSlash ctx.toWorld s t b loan record := by
  unfold executeSlash
  simp only [yields_bind, yields_ask, yields_look, yields_orFail, yields_require]
  refine yields_keeps₂ Store.book Store.vault fun _ s₁ hbook hvault loan hloan _ => ?_
  rw [hbook] at hloan
  refine yields_keeps id fun _ s₂ h₂ => ?_
  rw [id, id] at h₂
  subst h₂
  simp only [lift_eq_zoom, lift_self]
  refine (yields_zoom _ _ _ _).2 ((slashVouches_total _ _ _ _).mono ?_)
  rintro _ x rfl
  refine (yields_true _ _ _).mono fun _ s₃ _ => ?_
  refine (yields_zoom _ _ _ _).2 ((recordSlash_audit _ _ _ _ _).mono fun _ y hy => ?_)
  refine (yields_zoom _ _ _ _).2 ((yields_true _ _ _).mono fun _ z _ => ?_)
  change ∃ record, Audited y b ((inToken loan.tokenAddress (s₂.vault.records b)).map
    (seizedShare (slashRate ctx.toWorld s₂.book b))).sum (slashRate ctx.toWorld s₂.book b) record at hy
  rw [hbook, hvault] at hy
  obtain ⟨record, hrecord⟩ := hy
  exact ⟨loan, record, hloan, hrecord⟩

theorem executes_audit {op : Op} {b : Address} (hop : op.executes = some b) :
    Yields (dispatch op) ctx s fun _ t => ∃ loan record, AuditedSlash ctx.toWorld s t b loan record := by
  obtain ⟨approve, -, hbook, hvault, hdispatch⟩ := dispatch_executes hop
  rw [hdispatch, yields_bind]
  refine yields_keeps₂ Store.book Store.vault fun _ s₁ h₁ h₁' => ?_
  refine (executeSlash_audit b).mono ?_
  rintro _ t ⟨loan, record, hactive, haudited⟩
  rw [h₁] at hactive
  rw [h₁, Store.records, h₁'] at haudited
  exact ⟨loan, record, hactive, haudited⟩

end Calls

/-! ## What is left and what is paid -/

section

variable {w : World} {b loanToken : Address} {bps : Int} {x : Vault}

/-- The foreign records the queue does not take out. -/
theorem executed_records (w : World) (b loanToken : Address) (bps : Int) (x : Vault) :
    ((x.seized w loanToken bps b).drained w b).records b =
      unqueued (foreign loanToken (x.records b)) (x.queue b) := by
  have hseized : (x.seized w loanToken bps b).records b = foreign loanToken (x.records b) := by
    rw [Vault.seized_records, update_self]
  refine (Vault.drained_vouches ..).trans ?_
  change unqueued ((x.seized w loanToken bps b).records b) ((x.seized w loanToken bps b).queues b) = _
  rw [hseized, Vault.seized_queues]
  rfl

theorem executed_bank (w : World) (b loanToken : Address) (bps : Int) (x : Vault) :
    ((x.seized w loanToken bps b).drained w b).bank = x.bank.moves (seizures w loanToken bps (x.records b) ++
      (queuePayments w (foreign loanToken (x.records b)) (x.queue b) ++
        feePayments w (x.queue b) (unqueued (foreign loanToken (x.records b)) (x.queue b)))) := by
  have hseized : (x.seized w loanToken bps b).records b = foreign loanToken (x.records b) := by
    rw [Vault.seized_records, update_self]
  have hqueue : (x.seized w loanToken bps b).queue b = x.queue b := congrFun (Vault.seized_queues ..) b
  rw [Vault.drained_bank, Bank.moves_append]
  change (x.bank.moves (seizures w loanToken bps (x.records b))).moves
    (queuePayments w ((x.seized w loanToken bps b).records b) ((x.seized w loanToken bps b).queue b) ++
      feePayments w ((x.seized w loanToken bps b).queue b)
        (unqueued ((x.seized w loanToken bps b).records b) ((x.seized w loanToken bps b).queue b))) = _
  rw [hseized, hqueue]

/-- In an allowed token the queue pays all that it takes out, in any other nothing. -/
theorem outgo_queuePayments_eq (w : World) (token : Address) (vouches : List VouchRecord)
    (queue : List QueuedWithdrawal) :
    Bank.outgo (queuePayments w vouches queue) token =
      if w.Allows token then plainStake token vouches - plainStake token (unqueued vouches queue) else 0 := by
  obtain ⟨hpaid, hunpaid⟩ := queuePayments_allowed w vouches queue
  have hall := outgo_queuePayments w token vouches queue
  split
  case isTrue hallowed =>
    have hnone : plainStake token (unpaidRecords w vouches queue) = 0 := by
      have hempty : inToken token (unpaidRecords w vouches queue) = [] := by
        refine List.filter_eq_nil_iff.2 fun r hr htoken => hunpaid r hr ?_
        rw [of_decide_eq_true htoken]
        exact hallowed
      rw [plainStake, hempty]
      rfl
    omega
  case isFalse hallowed => exact Bank.outgo_eq_zero fun p hp htoken => hallowed (htoken ▸ hpaid p hp)

/-- Where stakes are positive, a token has none only without records. -/
theorem plainStake_eq_zero_iff {vouches : List VouchRecord} (hstakes : ∀ v ∈ vouches, 0 < v.stake) (token : Address) :
    plainStake token vouches = 0 ↔ ∀ v ∈ vouches, v.token ≠ token := by
  induction vouches with
  | nil => simp [plainStake_nil]
  | cons v vs ih =>
    obtain ⟨hv, hrest⟩ := List.forall_mem_cons.1 hstakes
    have hkept := plainStake_nonneg token fun u hu => (hrest u hu).le
    rw [plainStake_cons, VouchRecord.stakeIn, List.forall_mem_cons, ← ih hrest]
    split
    case isTrue htoken => exact ⟨fun h => by omega, fun h => absurd htoken h.1⟩
    case isFalse htoken => exact ⟨fun h => ⟨htoken, by omega⟩, fun h => by omega⟩

theorem plainStake_filter_add (p : VouchRecord → Prop) [DecidablePred p] (token : Address)
    (vouches : List VouchRecord) :
    plainStake token (vouches.filter fun v => p v) + plainStake token (vouches.filter fun v => ¬ p v) =
      plainStake token vouches := by
  induction vouches with
  | nil => rfl
  | cons v vs ih =>
    rw [plainStake_cons, ← ih]
    by_cases hv : p v
    · rw [List.filter_cons_of_pos (by simpa using hv), List.filter_cons_of_neg (by simpa using hv), plainStake_cons]
      omega
    · rw [List.filter_cons_of_neg (by simpa using hv), List.filter_cons_of_pos (by simpa using hv), plainStake_cons]
      omega

section

variable {s t : Store} (hvault : t.vault = (s.vault.seized w loanToken bps b).drained w b)

include hvault

theorem stakesPaid_eq (token : Address) : stakesPaid w b s t token =
    Bank.outgo (seizures w loanToken bps (s.vault.records b)) token +
      Bank.outgo (queuePayments w (foreign loanToken (s.vault.records b)) (s.vault.queue b)) token := by
  have hbank : t.bank = _ := (congrArg Vault.bank hvault).trans (executed_bank w b loanToken bps s.vault)
  have hrecords : t.vault.records b = _ :=
    (congrArg (Vault.records · b) hvault).trans (executed_records w b loanToken bps s.vault)
  rw [stakesPaid, feesSent, hrecords, hbank, Bank.outgo_moves, Bank.outgo_append, Bank.outgo_append]
  change _ + (_ + _) + Bank.outgo s.vault.bank.log token - Bank.outgo s.vault.bank.log token - _ = _
  omega

theorem stakeSent_executed (u token : Address) : stakeSent w b s.vault t.vault u token =
    Bank.sent (seizures w loanToken bps (s.vault.records b)) token w.contract u +
      Bank.sent (queuePayments w (foreign loanToken (s.vault.records b)) (s.vault.queue b)) token w.contract u := by
  have hbank := (congrArg Vault.bank hvault).trans (executed_bank w b loanToken bps s.vault)
  have hrecords : t.vault.records b = _ :=
    (congrArg (Vault.records · b) hvault).trans (executed_records w b loanToken bps s.vault)
  rw [stakeSent, hrecords, hbank, Bank.sent_moves, Bank.sent_append, Bank.sent_append]
  omega

end

end

/-! ## Every record once -/

section

variable {w : World} {b loanToken : Address} {s t : Store}

/-- In the loan's token a slash settles every record once. -/
theorem balanced_own {bps : Int} (hbps : bps ≤ 10000) (hstakes : ∀ v ∈ s.vault.records b, 0 < v.stake)
    (hvault : t.vault = (s.vault.seized w loanToken bps b).drained w b)
    (haudit : (t.slashing.slashAudit b).map (·.totalSlashed) =
      some ((inToken loanToken (s.vault.records b)).map (seizedShare bps)).sum) :
    plainStake loanToken (t.vault.records b) + stakesPaid w b s t loanToken + t.slashedIn b loanToken loanToken =
      plainStake loanToken (s.vault.records b) := by
  have hforeign : plainStake loanToken (foreign loanToken (s.vault.records b)) = 0 := by
    refine (plainStake_eq_zero_iff (fun v hv => hstakes v (List.mem_filter.1 hv).1) loanToken).2 fun v hv => ?_
    exact of_decide_eq_true (List.mem_filter.1 hv).2
  have hleft : plainStake loanToken (t.vault.records b) = 0 := by
    have hsub := sublist_of_unqueued (foreign loanToken (s.vault.records b)) (s.vault.queue b)
    have hrecords : t.vault.records b = _ :=
      (congrArg (Vault.records · b) hvault).trans (executed_records w b loanToken bps s.vault)
    rw [hrecords]
    refine (plainStake_eq_zero_iff (fun v hv => hstakes v (List.mem_filter.1 (hsub.subset hv)).1) loanToken).2 ?_
    exact fun v hv => of_decide_eq_true (List.mem_filter.1 (hsub.subset hv)).2
  have hunqueued : plainStake loanToken (unqueued (foreign loanToken (s.vault.records b)) (s.vault.queue b)) = 0 := by
    rw [← executed_records w b loanToken bps s.vault, ← hvault]
    exact hleft
  rw [stakesPaid_eq hvault, outgo_seizures w loanToken loanToken hbps hstakes, outgo_queuePayments_eq, hforeign,
    hunqueued, hleft, Store.slashedIn, haudit, if_pos rfl, if_pos rfl, Option.getD_some, Int.sub_self, ite_self]
  omega

/-- In another token the balance depends on what the queue takes out and may pay. -/
theorem balanced_foreign_iff {bps : Int} (hbps : bps ≤ 10000) (hwell : WellFormed (s.vault.records b))
    (hvault : t.vault = (s.vault.seized w loanToken bps b).drained w b) {token : Address} (hother : loanToken ≠ token) :
    plainStake token (t.vault.records b) + stakesPaid w b s t token + t.slashedIn b loanToken token =
        plainStake token (s.vault.records b) ↔
      ∀ v ∈ foreign loanToken (s.vault.records b), v.token = token →
        if w.isZeroAddress token = true then
          w.Allows token ∨ ¬ v.TakenOut (s.vault.queue b) (foreign loanToken (s.vault.records b))
        else ¬ w.Allows token ∧ v.TakenOut (s.vault.queue b) (foreign loanToken (s.vault.records b)) := by
  have hsub : (foreign loanToken (s.vault.records b)).Sublist (s.vault.records b) := List.filter_sublist
  have hforeign : WellFormed (foreign loanToken (s.vault.records b)) := hwell.sublist hsub
  have hrecords : t.vault.records b = _ :=
    (congrArg (Vault.records · b) hvault).trans (executed_records w b loanToken bps s.vault)
  have hall : plainStake token (s.vault.records b) = plainStake token (foreign loanToken (s.vault.records b)) := by
    have hsplit := plainStake_filter_add (fun v => v.token ≠ loanToken) token (s.vault.records b)
    have hown : plainStake token ((s.vault.records b).filter fun v => ¬ v.token ≠ loanToken) = 0 := by
      refine (plainStake_eq_zero_iff (fun v hv => hwell.staked v (List.mem_filter.1 hv).1) token).2 fun v hv => ?_
      rw [not_not.1 (of_decide_eq_true (List.mem_filter.1 hv).2)]
      exact hother
    rw [hown, Int.add_zero] at hsplit
    exact hsplit.symm
  change t.vault.records b = unqueued (foreign loanToken (s.vault.records b)) (s.vault.queue b) at hrecords
  rw [stakesPaid_eq hvault, outgo_seizures w loanToken token hbps hwell.staked, outgo_queuePayments_eq, hall, hrecords,
    Store.slashedIn, if_neg hother, if_neg hother]
  generalize foreign loanToken (s.vault.records b) = vouches, s.vault.queue b = queue at hforeign ⊢
  have hsplit := plainStake_filter_add (·.TakenOut queue vouches) token vouches
  rw [unqueued_eq_filter hforeign.nodup]
  have hstays := @plainStake_eq_zero_iff (vouches.filter fun v => ¬ v.TakenOut queue vouches)
    (fun v hv => hforeign.staked v (List.mem_filter.1 hv).1) token
  have htaken := @plainStake_eq_zero_iff (vouches.filter fun v => v.TakenOut queue vouches)
    (fun v hv => hforeign.staked v (List.mem_filter.1 hv).1) token
  simp only [List.mem_filter, decide_eq_true_eq, and_imp] at hstays htaken
  split
  · split
    case isTrue hallowed => exact ⟨fun _ v _ _ => .inl hallowed, fun _ => by omega⟩
    case isFalse hallowed =>
      refine Iff.trans (b := plainStake token (vouches.filter fun v => v.TakenOut queue vouches) = 0) (by omega) ?_
      rw [htaken]
      constructor
      · exact fun h v hv htoken => .inr fun hout => h v hv hout htoken
      · exact fun h v hv hout htoken => (h v hv htoken).resolve_left hallowed hout
  · split
    case isTrue hallowed =>
      refine Iff.trans (b := plainStake token vouches = 0) (by omega) ?_
      rw [plainStake_eq_zero_iff hforeign.staked]
      constructor
      · exact fun h v hv htoken => absurd htoken (h v hv)
      · exact fun h v hv htoken => (h v hv htoken).1 hallowed
    case isFalse hallowed =>
      refine Iff.trans (b := plainStake token (vouches.filter fun v => ¬ v.TakenOut queue vouches) = 0) (by omega) ?_
      rw [hstays]
      constructor
      · exact fun h v hv htoken => ⟨hallowed, not_not.1 fun hout => h v hv hout htoken⟩
      · exact fun h v hv hout htoken => hout (h v hv htoken).2

end

/-- Whatever records `b` has and whatever waits in its queue, a slash settles
every record once exactly if it settles those in other tokens than the loan's once. -/
theorem slash_settles_once_iff {c : Call} {s : State} {t : Store} {b : Address} {loan : LoanRecord}
    (hwell : WellFormed (s.store.records b)) (hc : c.op.executes = some b)
    (hloan : s.store.book.getActiveLoanRecord b = some loan) (hd : exec c s = .ok t) :
    SettledOnce s.world b loan.tokenAddress s.store t ↔
      ForeignOnce s.world (s.store.vault.queue b) (foreign loan.tokenAddress (s.store.records b)) := by
  obtain ⟨loan', hloan', -, hvault⟩ := executes_vault hc hd
  obtain rfl := Option.some.inj (hloan.symm.trans hloan')
  obtain ⟨loan', record, hactive, hrecord⟩ := yields_exec (executes_audit hc) hd
  obtain rfl := Option.some.inj (hloan.symm.trans hactive)
  have hbps : slashRate s.world s.store.book b ≤ 10000 := min_le_right ..
  have hforeign : WellFormed (foreign loan.tokenAddress (s.store.records b)) := hwell.sublist List.filter_sublist
  have hrecords : t.records b = unqueued (foreign loan.tokenAddress (s.store.records b)) (s.store.vault.queue b) :=
    (congrArg (Vault.records · b) hvault).trans (executed_records ..)
  constructor
  · intro hsettled v hv
    have hother : loan.tokenAddress ≠ v.token := (of_decide_eq_true (List.mem_filter.1 hv).2).symm
    exact (balanced_foreign_iff hbps hwell hvault hother).1 (hsettled.balanced v.token) v hv rfl
  · intro honce
    refine ⟨fun token => ?_, fun v hv => ?_⟩
    · by_cases hown : loan.tokenAddress = token
      · subst hown
        refine balanced_own hbps hwell.staked hvault ?_
        exact (congrArg (Option.map _) hrecord.filed).trans (congrArg some hrecord.total)
      · refine (balanced_foreign_iff hbps hwell hvault hown).2 fun v hv htoken => ?_
        subst htoken
        exact honce v hv
    · have hstays := hv
      rw [hrecords, mem_unqueued hforeign.nodup] at hv
      obtain ⟨hmem, hnot⟩ := hv
      have hother : v.token ≠ loan.tokenAddress := of_decide_eq_true (List.mem_filter.1 hmem).2
      have hsettled := honce v hmem
      split at hsettled
      case isTrue hzero =>
        rw [hrecords] at hstays
        have hsub := sublist_of_unqueued (foreign loan.tokenAddress (s.store.records b)) (s.store.vault.queue b)
        have hbefore := stakesOf_of_mem hforeign hmem
        have hafter := stakesOf_of_mem (hforeign.sublist hsub) hstays
        rw [stakeSent_executed hvault, sent_seizures_zero _ _ _ hother hzero, sent_queuePayments_eq]
        change 0 + (if s.world.Allows v.token then
          stakesOf v.voucher v.token (foreign loan.tokenAddress (s.store.records b)) -
            stakesOf v.voucher v.token
              (unqueued (foreign loan.tokenAddress (s.store.records b)) (s.store.vault.queue b)) else 0) = 0
        rw [hbefore, hafter, Int.sub_self, ite_self, Int.add_zero]
      case isFalse => exact absurd hsettled.2 hnot

/-- Accounts 2 and 3 vouch in tokens 100 and 101, the pool's loan is in token 100,
and account 2 votes for a slash. -/
def twoTokensVoted : List Act :=
  [.call [2] (.vouch 2 10 1000000 100 0), .call [3] (.vouch 3 10 500000 101 0),
    .call [1] (.createLoanPool [1] [10] [500000]), .call [2] (.voteSlash 2 10 true)]

/-- With both records in the loan's token and one of them in the queue, the slash
settles both once. -/
theorem slash_settles_once_own :
    let requested := requestedForFee ++ [.call [2] (.voteSlash 2 10 true), .call [3] (.voteSlash 3 10 true)]
    let s := start.play requested
    let c : Call := ⟨[1], .executePendingSlash 10⟩
    ∃ loan, s.store.book.getActiveLoanRecord 10 = some loan ∧ (s.store.vault.queue 10).length = 1 ∧
      SettledOnce s.world 10 loan.tokenAddress s.store (s.after c).store := by
  intro requested s c
  have hok : (exec c s).toBool = true := by decide +kernel
  have hd := exec_after hok
  obtain ⟨loan, hloan, -⟩ := executes_vault (b := 10) rfl hd
  have htoken : (s.store.book.getActiveLoanRecord 10).map (·.tokenAddress) = some 100 := by decide +kernel
  rw [hloan, Option.map_some] at htoken
  have hwell : WellFormed (s.store.records 10) := (start_history requested).vaultInOrder.wellFormed 10
  refine ⟨loan, hloan, by decide +kernel, (slash_settles_once_iff hwell rfl hloan hd).2 ?_⟩
  rw [Option.some.inj htoken]
  decide +kernel

/-- The record in token 101 is paid back in full and stays on the list. -/
theorem slash_pays_and_keeps :
    ¬ ∀ (c : Call) (s : State) (t : Store) (b : Address) (loan : LoanRecord), Reachable s → c.op.executes = some b →
      s.store.book.getActiveLoanRecord b = some loan → exec c s = .ok t →
      SettledOnce s.world b loan.tokenAddress s.store t := by
  intro hall
  let s := start.play twoTokensVoted
  let c : Call := ⟨[1], .executePendingSlash 10⟩
  have hok : (exec c s).toBool = true := by decide +kernel
  have hd := exec_after hok
  obtain ⟨loan, hloan, -⟩ := executes_vault (b := 10) rfl hd
  have hsettled := hall c s _ 10 loan (Reachable.script sampleWorld sampleBank twoTokensVoted) rfl hloan hd
  have htwice : ¬ ∀ v ∈ (s.after c).store.records 10,
      stakeSent s.world 10 s.store.vault (s.after c).store.vault v.voucher v.token = 0 := by decide +kernel
  exact htwice hsettled.unpaid

end QuorumCredit
