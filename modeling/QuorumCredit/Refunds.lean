import QuorumCredit.Custody
/-!
# What a default gives back

`slash`, `auto_slash` and `claim_expired_loan` settle a loan in default and pay back
what is left of the stakes behind it. All three pay with one token client, the
protocol's own: a record in another allowed token is paid back in the wrong one.
-/

open Host Function

namespace QuorumCredit

/-- The borrower whose vouches the call pays back in default. -/
def Op.refundsFor : Op → Option Address
  | .slash _ b | .autoSlash b | .claimExpiredLoan b => some b
  | _ => none

/-- The share of a stake that the call slashes; an expired loan is settled without a slash. -/
def Op.slashedPart (w : World) (v : VouchRecord) : Op → Int
  | .slash .. | .autoSlash .. => (v.stake * w.config.slashBps).tdiv bpsDenominator
  | _ => 0

/-- The rest of it. -/
def Op.refundOf (w : World) (op : Op) (v : VouchRecord) : Int := v.stake - op.slashedPart w v

/-- The refunds of all records, each to its voucher, in the token that `token` says. -/
def Op.refunds (w : World) (op : Op) (token : VouchRecord → Address) (vouches : List VouchRecord) :
    List (Transfer Address Address) :=
  vouches.filterMap fun v =>
    if 0 < op.refundOf w v then some (w.payment (token v) v.voucher (op.refundOf w v)) else none

/-- What the call has paid is the rest of every stake, in the record's own token and to
its voucher: of no token more than is recorded in it. -/
structure RefundedInKind (w : World) (op : Op) (vouches : List VouchRecord) (paid : List (Transfer Address Address)) :
    Prop where
  each : paid.Perm (op.refunds w (·.token) vouches)
  bounded : ∀ token, Bank.outgo paid token ≤ plainStake token vouches

section

variable {w : World} {op : Op} {vouches : List VouchRecord}

theorem refunds_congr {token token' : VouchRecord → Address}
    (h : ∀ v ∈ vouches, 0 < op.refundOf w v → token v = token' v) :
    op.refunds w token vouches = op.refunds w token' vouches := by
  refine List.filterMap_congr fun v hv => ?_
  by_cases hpos : 0 < op.refundOf w v
  · rw [if_pos hpos, if_pos hpos, h v hv hpos]
  · rw [if_neg hpos, if_neg hpos]

theorem mem_refunds {t : VouchRecord → Address} {v : VouchRecord} (hv : v ∈ vouches) (hpos : 0 < op.refundOf w v) :
    w.payment (t v) v.voucher (op.refundOf w v) ∈ op.refunds w t vouches :=
  List.mem_filterMap.2 ⟨v, hv, if_pos hpos⟩

/-- Refunds in one token are all in that token. -/
theorem token_of_mem_refunds {token : Address} {p : Transfer Address Address}
    (hp : p ∈ op.refunds w (fun _ => token) vouches) :
    p.token = token := by
  obtain ⟨v, -, hpaid⟩ := List.mem_filterMap.1 hp
  split at hpaid
  case isTrue =>
    cases hpaid
    rfl
  case isFalse => cases hpaid

/-- A share that is not negative leaves no more than the stake. -/
theorem refundOf_le {v : VouchRecord} (hpart : 0 ≤ op.slashedPart w v) : op.refundOf w v ≤ v.stake := by
  unfold Op.refundOf
  omega

/-- All shares are of one sign, the rate's: where one is negative, nobody is slashed anything. -/
theorem le_refundOf_of_slashedPart_neg {u v : VouchRecord} (hu : 0 < u.stake) (hv : 0 < v.stake)
    (hneg : op.slashedPart w u < 0) : v.stake ≤ op.refundOf w v := by
  have hpart : op.slashedPart w v ≤ 0 := by
    have hbps : w.config.slashBps < 0 := by
      by_contra hge
      have hshare : 0 ≤ (u.stake * w.config.slashBps).tdiv bpsDenominator :=
        Int.tdiv_nonneg (Int.mul_nonneg hu.le (not_lt.1 hge)) (by decide)
      unfold Op.slashedPart at hneg
      split at hneg
      · omega
      · omega
      · omega
    have hshare : (v.stake * w.config.slashBps).tdiv bpsDenominator ≤ 0 := by
      rw [← neg_nonneg, ← Int.neg_tdiv, ← mul_neg]
      exact Int.tdiv_nonneg (Int.mul_nonneg hv.le (neg_nonneg.2 hbps.le)) (by decide)
    unfold Op.slashedPart
    split
    · exact hshare
    · exact hshare
    · exact le_rfl
  unfold Op.refundOf
  omega

theorem outgo_refunds_cons (v : VouchRecord) (vs : List VouchRecord) (token : Address) :
    Bank.outgo (op.refunds w (·.token) (v :: vs)) token =
      (if v.token = token then max 0 (op.refundOf w v) else 0) + Bank.outgo (op.refunds w (·.token) vs) token := by
  by_cases hpos : 0 < op.refundOf w v
  · have hcons : op.refunds w (·.token) (v :: vs) =
        w.payment v.token v.voucher (op.refundOf w v) :: op.refunds w (·.token) vs :=
      List.filterMap_cons_some (if_pos hpos)
    rw [hcons, Bank.outgo_cons, payment_token, max_eq_right hpos.le]
    rfl
  · have hcons : op.refunds w (·.token) (v :: vs) = op.refunds w (·.token) vs :=
      List.filterMap_cons_none (if_neg hpos)
    rw [hcons, max_eq_left (not_lt.1 hpos), ite_self, zero_add]

theorem outgo_refunds_le (hstakes : ∀ v ∈ vouches, 0 < v.stake) (hparts : ∀ v ∈ vouches, 0 ≤ op.slashedPart w v)
    (token : Address) : Bank.outgo (op.refunds w (·.token) vouches) token ≤ plainStake token vouches := by
  induction vouches with
  | nil => rfl
  | cons v vs ih =>
    obtain ⟨hv, hvs⟩ := List.forall_mem_cons.1 hstakes
    obtain ⟨hpart, hps⟩ := List.forall_mem_cons.1 hparts
    have ih := ih hvs hps
    have hle : op.refundOf w v ≤ v.stake := refundOf_le hpart
    rw [outgo_refunds_cons, plainStake_cons, VouchRecord.stakeIn]
    split
    · omega
    · omega

/-- Refunds that are all at least the stakes, in one token, exceed the stakes by the shares. -/
theorem outgo_refunds_all {token : Address} (htoken : ∀ v ∈ vouches, v.token = token)
    (hpaid : ∀ v ∈ vouches, 0 < op.refundOf w v) :
    Bank.outgo (op.refunds w (·.token) vouches) token =
      plainStake token vouches - (vouches.map (op.slashedPart w)).sum := by
  induction vouches with
  | nil => rfl
  | cons v vs ih =>
    obtain ⟨hv, hvs⟩ := List.forall_mem_cons.1 htoken
    obtain ⟨hpos, hps⟩ := List.forall_mem_cons.1 hpaid
    rw [outgo_refunds_cons, plainStake_cons, VouchRecord.stakeIn, ih hvs hps, if_pos hv, if_pos hv,
      max_eq_right hpos.le, List.map_cons, List.sum_cons, Op.refundOf]
    omega

/-- Where a share is negative the stakes are all given back and more, which is too much
in one token. -/
theorem slashedPart_nonneg (hstakes : ∀ v ∈ vouches, 0 < v.stake) {token : Address}
    (htoken : ∀ v ∈ vouches, 0 < op.refundOf w v → v.token = token)
    (hbound : Bank.outgo (op.refunds w (·.token) vouches) token ≤ plainStake token vouches) :
    ∀ v ∈ vouches, 0 ≤ op.slashedPart w v := by
  intro u hu
  by_contra hneg
  have hge : ∀ v ∈ vouches, v.stake ≤ op.refundOf w v :=
    fun v hv => le_refundOf_of_slashedPart_neg (hstakes u hu) (hstakes v hv) (not_le.1 hneg)
  have hpaid : ∀ v ∈ vouches, 0 < op.refundOf w v := fun v hv => (hstakes v hv).trans_le (hge v hv)
  have hsum : (vouches.map (op.slashedPart w)).sum < 0 := by
    have hlt : (vouches.map (op.slashedPart w)).sum < (vouches.map fun _ => (0 : Int)).sum := by
      refine List.sum_lt_sum _ _ (fun v hv => ?_) ⟨u, hu, not_le.1 hneg⟩
      have hv := hge v hv
      unfold Op.refundOf at hv
      omega
    rwa [List.map_const', List.sum_replicate, smul_zero] at hlt
  rw [outgo_refunds_all (fun v hv => htoken v hv (hpaid v hv)) hpaid] at hbound
  omega

/-- Refunds in one token are in kind when every record that is paid back is in that token
and no share is negative, and only then. -/
theorem refundedInKind_iff (hstakes : ∀ v ∈ vouches, 0 < v.stake) (token : Address) :
    RefundedInKind w op vouches (op.refunds w (fun _ => token) vouches).reverse ↔
      (∀ v ∈ vouches, 0 < op.refundOf w v → v.token = token) ∧ ∀ v ∈ vouches, 0 ≤ op.slashedPart w v := by
  constructor
  · intro h
    have htoken : ∀ v ∈ vouches, 0 < op.refundOf w v → v.token = token := by
      intro v hv hpos
      have hpaid := h.each.mem_iff.2 (mem_refunds (t := (·.token)) hv hpos)
      exact token_of_mem_refunds (List.mem_reverse.1 hpaid)
    have hsum : Bank.outgo (op.refunds w (fun _ => token) vouches).reverse token =
        Bank.outgo (op.refunds w (·.token) vouches) token := (h.each.map _).sum_eq
    exact ⟨htoken, slashedPart_nonneg hstakes htoken (hsum ▸ h.bounded token)⟩
  · rintro ⟨h, hparts⟩
    have hkind : op.refunds w (fun _ => token) vouches = op.refunds w (·.token) vouches :=
      refunds_congr fun v hv hpos => (h v hv hpos).symm
    have heach : (op.refunds w (fun _ => token) vouches).reverse.Perm (op.refunds w (·.token) vouches) := by
      rw [hkind]
      exact List.reverse_perm _
    refine ⟨heach, fun t => ?_⟩
    have hsum : Bank.outgo (op.refunds w (fun _ => token) vouches).reverse t =
        Bank.outgo (op.refunds w (·.token) vouches) t := (heach.map _).sum_eq
    rw [hsum]
    exact outgo_refunds_le hstakes hparts t

end

/-- What the three settlements pay. -/
theorem refunds_bank {c : Call} {s : State} {t : Store} {b : Address} (hop : c.op.refundsFor = some b)
    (h : exec c s = .ok t) (hstakes : ∀ v ∈ s.store.records b, 0 < v.stake) :
    t.bank = s.store.bank.moves (c.op.refunds s.world (fun _ => s.world.config.token) (s.store.records b)) := by
  obtain ⟨signers, op⟩ := c
  cases op with
  | slash admins b' =>
    cases hop
    exact congrArg Vault.bank (yields_exec (c := ⟨signers, .slash admins b⟩) (slash_vault admins b) h).2
  | autoSlash b' =>
    cases hop
    exact congrArg Vault.bank (yields_exec (c := ⟨signers, .autoSlash b⟩) (autoSlash_vault b) h).2
  | claimExpiredLoan b' =>
    cases hop
    have hall : (Op.claimExpiredLoan b).refunds s.world (fun _ => s.world.config.token) (s.store.records b) =
        (s.store.records b).map fun v => s.world.payment s.world.config.token v.voucher v.stake := by
      rw [← List.filterMap_eq_map]
      refine List.filterMap_congr fun v hv => ?_
      have hrefund : (Op.claimExpiredLoan b).refundOf s.world v = v.stake := Int.sub_zero v.stake
      rw [hrefund, if_pos (hstakes v hv)]
      rfl
    rw [hall]
    exact congrArg Vault.bank (yields_exec (c := ⟨signers, .claimExpiredLoan b⟩) (claimExpiredLoan_vault b) h).2
  | _ => cases hop

/-- A settlement in default pays every record back in its own token, and of no token more
than is recorded in it, if and only if every record it pays anything back for is in the
protocol's and no slashed share is negative. -/
theorem default_refunds_in_kind {c : Call} {s : State} {t : Store} {b : Address} (hop : c.op.refundsFor = some b)
    (h : exec c s = .ok t) (hstakes : ∀ v ∈ s.store.records b, 0 < v.stake) :
    (∃ paid, t.bank.log = paid ++ s.store.bank.log ∧ RefundedInKind s.world c.op (s.store.records b) paid) ↔
      (∀ v ∈ s.store.records b, 0 < c.op.refundOf s.world v → v.token = s.world.config.token) ∧
        ∀ v ∈ s.store.records b, 0 ≤ c.op.slashedPart s.world v := by
  have hlog : t.bank.log =
      (c.op.refunds s.world (fun _ => s.world.config.token) (s.store.records b)).reverse ++ s.store.bank.log := by
    rw [refunds_bank hop h hstakes, Bank.moves_log]
  rw [← refundedInKind_iff hstakes]
  constructor
  · rintro ⟨paid, hpaid, hkind⟩
    rw [hlog] at hpaid
    rw [List.append_cancel_right hpaid]
    exact hkind
  · exact fun hkind => ⟨_, hlog, hkind⟩

/-- The stakes behind the pooled loan are all in the protocol's token. -/
theorem default_refunds_in_kind_pooled :
    ∃ paid, ((start.play poolLoan).after ⟨[1], .slash [1] 10⟩).store.bank.log =
        paid ++ (start.play poolLoan).store.bank.log ∧
      RefundedInKind (start.play poolLoan).world (.slash [1] 10) ((start.play poolLoan).store.records 10) paid := by
  have hrecords : ∀ v ∈ (start.play poolLoan).store.records 10, 0 < v.stake ∧ v.token = 100 ∧
      0 ≤ (Op.slash [1] 10).slashedPart (start.play poolLoan).world v := by decide +kernel
  have hgoes : (exec ⟨[1], .slash [1] 10⟩ (start.play poolLoan)).toBool = true := by decide +kernel
  have htoken : (start.play poolLoan).world.config.token = 100 := by decide +kernel
  generalize start.play poolLoan = s at hrecords hgoes htoken
  refine (default_refunds_in_kind (b := 10) rfl (exec_after hgoes) (fun v hv => (hrecords v hv).1)).2 ⟨?_, ?_⟩
  · intro v hv _
    rw [htoken]
    exact (hrecords v hv).2.1
  · exact fun v hv => (hrecords v hv).2.2

/-- Account 2 vouches in the protocol's token, account 3 in another that is allowed. -/
def mixedLoan : List Act :=
  [.call [2] (.vouch 2 10 600000 100 0), .call [3] (.vouch 3 10 900000 101 0),
    .call [1] (.createLoanPool [1] [10] [300000])]

/-- Account 3 is paid back in a token it has not staked, and that token pays out more than was staked in it. -/
theorem default_refunds_in_wrong_token :
    ¬ ∀ (s : State) (c : Call) (t : Store) (b : Address), Reachable s → c.op.refundsFor = some b → exec c s = .ok t →
      (∀ v ∈ s.store.records b, v.token = s.world.config.token ∨ v.token ∈ s.world.config.allowedTokens) →
      ∃ paid, t.bank.log = paid ++ s.store.bank.log ∧ RefundedInKind s.world c.op (s.store.records b) paid := by
  intro hclaim
  have hreached : Reachable (start.play mixedLoan) := Reachable.script sampleWorld sampleBank mixedLoan
  have htokens : ∀ v ∈ (start.play mixedLoan).store.records 10,
      v.token = (start.play mixedLoan).world.config.token ∨
        v.token ∈ (start.play mixedLoan).world.config.allowedTokens := by decide +kernel
  have hgoes : (exec ⟨[1], .slash [1] 10⟩ (start.play mixedLoan)).toBool = true := by decide +kernel
  have hpaid : (((start.play mixedLoan).after ⟨[1], .slash [1] 10⟩).store.bank.log.take 2).map
      (fun p => (p.token, p.amount))
      = [(100, 450000), (100, 300000)] := by decide +kernel
  have hlength : ((start.play mixedLoan).after ⟨[1], .slash [1] 10⟩).store.bank.log.length =
      (start.play mixedLoan).store.bank.log.length + 2 := by decide +kernel
  have hstaked : plainStake 100 ((start.play mixedLoan).store.records 10) = 600000 := by decide +kernel
  generalize start.play mixedLoan = s at hreached htokens hgoes hpaid hlength hstaked
  obtain ⟨paid, hlog, hkind⟩ := hclaim s _ _ 10 hreached rfl (exec_after hgoes) htokens
  rw [hlog] at hpaid hlength
  rw [List.length_append, Nat.add_comm, Nat.add_left_cancel_iff] at hlength
  rw [List.take_append_of_le_length hlength.ge, List.take_of_length_le hlength.le] at hpaid
  have hbound := hkind.bounded 100
  have hsum : Bank.outgo paid 100 =
      ((paid.map fun p => (p.token, p.amount)).map fun p => if p.1 = 100 then p.2 else 0).sum := by
    rw [List.map_map]
    rfl
  rw [hsum, hpaid, hstaked] at hbound
  exact absurd hbound (by decide)

end QuorumCredit
