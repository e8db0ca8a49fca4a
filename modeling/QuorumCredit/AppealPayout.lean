import QuorumCredit.Host.ProRata
import QuorumCredit.Disposal
/-!
# What an approved appeal pays

`finalize_appeal_internal` returns the escrow to the vouchers: to each record its
proportion of the stakes, rounded to basis points, and to the last one what is
left. It is the whole escrow in any case; a record before the last can get less
than its share rounded down.
-/

open Host Function

namespace QuorumCredit

/-! ## The amounts -/

/-- The proportion of a stake in basis points, as the code casts it. -/
def stakeProportion (totalStake stake : Int) : Int := ((stake * bpsDenominator).tdiv totalStake) % 2 ^ 32

/-- The amounts the loop works out, one for each record, after `distributed`. -/
def returnedAmounts (escrowAmount totalStake distributed : Int) : List VouchRecord → List Int
  | [] => []
  | [_] => [escrowAmount - distributed]
  | v :: vs =>
    let returned := (escrowAmount * stakeProportion totalStake v.stake).tdiv bpsDenominator
    returned :: returnedAmounts escrowAmount totalStake (distributed + returned) vs

/-- A record with others after it. -/
theorem returnedAmounts_before (escrowAmount totalStake distributed : Int) (v u : VouchRecord) (us : List VouchRecord) :
    returnedAmounts escrowAmount totalStake distributed (v :: u :: us) =
      (escrowAmount * stakeProportion totalStake v.stake).tdiv bpsDenominator ::
        returnedAmounts escrowAmount totalStake
          (distributed + (escrowAmount * stakeProportion totalStake v.stake).tdiv bpsDenominator) (u :: us) := rfl

/-- The transfers they make: those of nothing are left out. -/
def appealPayments (w : World) (token : Address) (vouches : List VouchRecord) (amounts : List Int) :
    List (Transfer Address Address) :=
  ((vouches.zip amounts).filter fun p => 0 < p.2).map fun p => w.payment token p.1.voucher p.2

/-- The payout is exact: no amount is negative or below the record's share rounded
down, and together they are the escrow. -/
structure PaysEscrow (escrowAmount totalStake : Int) (vouches : List VouchRecord) (amounts : List Int) : Prop where
  nonneg : ∀ amount ∈ amounts, 0 ≤ amount
  share : ∀ p ∈ vouches.zip amounts, escrowAmount * p.1.stake / totalStake ≤ p.2
  total : amounts.sum = escrowAmount

/-- What the rounding to basis points loses of the record's share is lost in rounding the share anyway. -/
def LosesNothing (escrowAmount totalStake : Int) (v : VouchRecord) : Prop :=
  escrowAmount * (bpsDenominator * v.stake % totalStake) ≤ bpsDenominator * (escrowAmount * v.stake % totalStake)

instance (escrowAmount totalStake : Int) (v : VouchRecord) : Decidable (LosesNothing escrowAmount totalStake v) :=
  inferInstanceAs (Decidable (_ ≤ _))

section

variable {escrowAmount totalStake : Int}

/-- The cast to 32 bits loses nothing of a proportion. -/
theorem stakeProportion_eq {stake : Int} (hstake : 0 ≤ stake) (hle : stake ≤ totalStake) (htotal : 0 < totalStake) :
    stakeProportion totalStake stake = bpsDenominator * stake / totalStake := by
  have hnonneg : 0 ≤ stake * bpsDenominator := Int.mul_nonneg hstake (by decide)
  have hpart : 0 ≤ bpsDenominator * stake / totalStake :=
    Int.ediv_nonneg (Int.mul_nonneg (by decide) hstake) htotal.le
  have hwhole : bpsDenominator * stake / totalStake ≤ bpsDenominator := by
    refine Int.ediv_le_of_le_mul htotal ?_
    exact Int.mul_le_mul_of_nonneg_left hle (by decide)
  rw [stakeProportion, Int.tdiv_eq_ediv_of_nonneg hnonneg, Int.mul_comm]
  refine Int.emod_eq_of_lt hpart (hwhole.trans_lt (by decide))

/-- The loop, with as much distributed as the stakes before have a right to at most. -/
theorem returnedAmounts_spec (hescrow : 0 ≤ escrowAmount) (htotal : 0 < totalStake) {vouches : List VouchRecord}
    (hne : vouches ≠ []) (hstakes : ∀ v ∈ vouches, 0 ≤ v.stake) (hsum : stakeSum vouches ≤ totalStake)
    {distributed : Int} (hdist : distributed * totalStake ≤ escrowAmount * (totalStake - stakeSum vouches)) :
    (∀ amount ∈ returnedAmounts escrowAmount totalStake distributed vouches, 0 ≤ amount) ∧
      (returnedAmounts escrowAmount totalStake distributed vouches).sum = escrowAmount - distributed ∧
      ((∀ p ∈ vouches.zip (returnedAmounts escrowAmount totalStake distributed vouches),
          escrowAmount * p.1.stake / totalStake ≤ p.2) ↔
        ∀ v ∈ vouches.dropLast, LosesNothing escrowAmount totalStake v) := by
  induction vouches generalizing distributed with
  | nil => exact absurd rfl hne
  | cons v vs ih =>
    obtain ⟨hv, hrest⟩ := List.forall_mem_cons.1 hstakes
    have hsplit : stakeSum (v :: vs) = v.stake + stakeSum vs := List.sum_cons
    rw [hsplit] at hsum hdist
    cases vs with
    | nil =>
      -- the last record gets what is left, its share at least
      have hnone : stakeSum [] = 0 := rfl
      have hshare : escrowAmount * v.stake / totalStake ≤ escrowAmount - distributed := by
        refine Int.ediv_le_of_le_mul htotal ?_
        rw [hnone, Int.add_zero, Int.mul_sub] at hdist
        rw [Int.sub_mul]
        omega
      have hnonneg : 0 ≤ escrowAmount * v.stake / totalStake :=
        Int.ediv_nonneg (Int.mul_nonneg hescrow hv) htotal.le
      refine ⟨?_, ?_, ?_⟩
      · intro amount hamount
        rw [List.mem_singleton.1 hamount]
        exact hnonneg.trans hshare
      · exact List.sum_singleton
      · refine iff_of_true (fun p hp => ?_) fun w hw => by cases hw
        rw [List.mem_singleton.1 hp]
        exact hshare
    | cons u us =>
      have hrestNonneg : 0 ≤ stakeSum (u :: us) := List.sum_nonneg (List.forall_mem_map.2 hrest)
      have hproportion := stakeProportion_eq hv (by omega) htotal
      have hpart : 0 ≤ bpsDenominator * v.stake / totalStake :=
        Int.ediv_nonneg (Int.mul_nonneg (by decide) hv) htotal.le
      have hreturned : (escrowAmount * stakeProportion totalStake v.stake).tdiv bpsDenominator =
          escrowAmount * (bpsDenominator * v.stake / totalStake) / bpsDenominator := by
        rw [hproportion, Int.tdiv_eq_ediv_of_nonneg (Int.mul_nonneg hescrow hpart)]
      have hscale : 0 < bpsDenominator := by decide
      have hwithin := @scaled_part_mul_le _ v.stake _ _ hescrow htotal hscale
      have hlost := @le_scaled_part_iff escrowAmount v.stake _ _ htotal hscale
      rw [returnedAmounts_before, hreturned]
      generalize hr : escrowAmount * (bpsDenominator * v.stake / totalStake) / bpsDenominator = returned
        at hwithin hlost
      have hreturnedNonneg : 0 ≤ returned := by
        rw [← hr]
        exact Int.ediv_nonneg (Int.mul_nonneg hescrow hpart) (by decide)
      have hdist' : (distributed + returned) * totalStake ≤ escrowAmount * (totalStake - stakeSum (u :: us)) := by
        have hbefore : escrowAmount * (totalStake - (v.stake + stakeSum (u :: us))) =
            escrowAmount * (totalStake - stakeSum (u :: us)) - v.stake * escrowAmount := by ring
        rw [Int.add_mul]
        omega
      obtain ⟨hnonneg, htotalSum, hshares⟩ := ih (List.cons_ne_nil _ _) hrest (by omega) hdist'
      refine ⟨?_, ?_, ?_⟩
      · exact List.forall_mem_cons.2 ⟨hreturnedNonneg, hnonneg⟩
      · rw [List.sum_cons, htotalSum]
        omega
      · rw [List.zip_cons_cons, List.forall_mem_cons, List.dropLast_cons_of_ne_nil (List.cons_ne_nil _ _),
          List.forall_mem_cons, hshares]
        exact and_congr_left fun _ => hlost

end

/-! ## The transfers -/

section

variable {ctx : Context} {token : Address} {escrowAmount totalStake : Int}

theorem appealPayments_cons (w : World) (token : Address) (v : VouchRecord) (vouches : List VouchRecord) (amount : Int)
    (amounts : List Int) : appealPayments w token (v :: vouches) (amount :: amounts) =
      if 0 < amount then w.payment token v.voucher amount :: appealPayments w token vouches amounts
      else appealPayments w token vouches amounts := by
  unfold appealPayments
  rw [List.zip_cons_cons]
  split
  case isTrue hpos => rw [List.filter_cons_of_pos (by simpa using hpos), List.map_cons]
  case isFalse hpos => rw [List.filter_cons_of_neg (by simpa using hpos)]

/-- One record's payment, if it is one of anything, and then the rest. -/
theorem yields_payPositive (dst : Address) (amount : Int) (bank : Ledger) {rest : Contract Ledger Unit}
    {Q : Unit → Ledger → Prop}
    (h : Yields rest ctx (if 0 < amount then bank.move token ctx.contract dst amount else bank) Q) :
    Yields (if 0 < amount then do pay token dst amount; rest else rest) ctx bank Q := by
  rw [yields_ite, yields_bind, yields_pay]
  refine ⟨fun hpos _ _ => ?_, fun hpos => ?_⟩
  · rwa [if_pos hpos] at h
  · rwa [if_neg hpos] at h

theorem moves_appealPayments_cons (v : VouchRecord) (vouches : List VouchRecord) (amount : Int) (amounts : List Int)
    (bank : Ledger) : bank.moves (appealPayments ctx.toWorld token (v :: vouches) (amount :: amounts)) =
      (if 0 < amount then bank.move token ctx.contract v.voucher amount else bank).moves
        (appealPayments ctx.toWorld token vouches amounts) := by
  rw [appealPayments_cons]
  split
  · rfl
  · rfl

/-- The loop makes the transfers of the amounts. -/
theorem returnEscrow_pays (vouches : List VouchRecord) (distributed : Int) (bank : Ledger) :
    Yields (returnEscrow token escrowAmount totalStake distributed vouches) ctx bank fun _ bank' =>
      bank' = bank.moves (appealPayments ctx.toWorld token vouches
        (returnedAmounts escrowAmount totalStake distributed vouches)) := by
  induction vouches generalizing distributed bank with
  | nil => exact (yields_pure ..).2 rfl
  | cons v vs ih =>
    cases vs with
    | nil =>
      simp only [returnEscrow, returnedAmounts, yields_steps, yields_i128, moves_appealPayments_cons, yields_ite,
        yields_pay]
      intro _ _
      refine ⟨fun hpos _ _ => ?_, fun hpos => ?_⟩
      · rw [if_pos hpos]
        rfl
      · rw [if_neg hpos]
        rfl
    | cons u us =>
      rw [returnedAmounts_before]
      simp only [returnEscrow, yields_bind, yields_i128, moves_appealPayments_cons]
      intro _ _ _
      exact yields_payPositive _ _ _ (ih _ _)

end

/-- An approved appeal has paid the vouchers out of the stakes as they are. -/
theorem finalizeAppealInternal_pays {ctx : Context} {s : Store} {b : Address} {escrow : SlashEscrow} {loan : LoanRecord}
    (hescrow : s.slashing.slashEscrow b = some (.appealed escrow)) (hloan : s.book.getLatestLoanRecord b = some loan) :
    Yields (finalizeAppealInternal b) ctx s fun _ t =>
      t.slashing.slashEscrow b = some (.appealed { escrow with status := .approved }) →
        0 < stakeSum (s.records b) ∧ t.bank = s.bank.moves (appealPayments ctx.toWorld loan.tokenAddress (s.records b)
          (returnedAmounts escrow.escrowAmount (stakeSum (s.records b)) 0 (s.records b))) := by
  unfold finalizeAppealInternal burnEscrow setEscrow
  simp only [yields_steps, yields_ite, yields_parts]
  refine (appealedEscrow_spec b _).mono ?_
  rintro r _ ⟨rfl, hentry⟩
  obtain rfl : r = some escrow := by
    have hfound := hentry.symm.trans hescrow
    cases r with
    | none => cases hfound
    | some e => cases hfound; rfl
  simp only [yields_i128]
  rintro _ ⟨⟩ _ appeal _
  refine (yields_sumI128 _ _ _ _ _).mono ?_
  rintro total _ ⟨htotal, rfl⟩
  rw [Int.zero_add] at htotal
  obtain rfl : total = stakeSum (s.records b) := htotal
  refine (appealApproved_spec appeal _ _).mono ?_
  rintro approved _ ⟨rfl, happroved⟩
  refine ⟨fun hyes loan' hloan' => ?_, fun _ _ => ?_⟩
  · obtain rfl := Option.some.inj (hloan.symm.trans hloan')
    refine (returnEscrow_pays _ _ _).mono ?_
    rintro _ bank rfl _
    exact ⟨(happroved.1 hyes).1, rfl⟩
  · intro hstatus
    have hrejected := (update_self ..).symm.trans hstatus
    cases hrejected

/-- Whatever the escrow and the stakes: an approved appeal transfers the amounts of
the loop, and these are exact if and only if no record but the last loses more by
the rounding to basis points than by that of its share. -/
theorem appeal_payout_exact_iff {ctx : Context} {s t : Store} {b : Address} {escrow : SlashEscrow} {loan : LoanRecord}
    (hescrow : s.slashing.slashEscrow b = some (.appealed escrow)) (hloan : s.book.getLatestLoanRecord b = some loan)
    (hamount : 0 ≤ escrow.escrowAmount) (hstakes : ∀ v ∈ s.records b, 0 ≤ v.stake)
    (hrun : finalizeAppealInternal b ctx s = .ok ((), t))
    (happroved : t.slashing.slashEscrow b = some (.appealed { escrow with status := .approved })) :
    let totalStake := stakeSum (s.records b)
    let amounts := returnedAmounts escrow.escrowAmount totalStake 0 (s.records b)
    t.bank = s.bank.moves (appealPayments ctx.toWorld loan.tokenAddress (s.records b) amounts) ∧
      (PaysEscrow escrow.escrowAmount totalStake (s.records b) amounts ↔
        ∀ v ∈ (s.records b).dropLast, LosesNothing escrow.escrowAmount totalStake v) := by
  intro totalStake amounts
  obtain ⟨htotal, hbank⟩ := finalizeAppealInternal_pays hescrow hloan _ _ hrun happroved
  have hne : s.records b ≠ [] := by
    intro hnone
    rw [hnone] at htotal
    cases htotal
  obtain ⟨hnonneg, hsum, hshares⟩ := returnedAmounts_spec hamount htotal hne hstakes le_rfl
    (show 0 * _ ≤ _ by rw [Int.sub_self, Int.zero_mul, Int.mul_zero])
  rw [Int.sub_zero] at hsum
  refine ⟨hbank, ?_⟩
  rw [← hshares]
  exact ⟨fun h => h.share, fun h => ⟨hnonneg, h, hsum⟩⟩

/-! ## Two appeals -/

/-- After a slash of 500000, with its escrow released, an appeal is opened. Accounts
3 and 4 vouch 1000000 each and vote for it, account 5 vouches `stake`, and account
6 vouches only for the time of the vote. -/
def reappealed (stake : Int) : List Act :=
  executedSlash ++ [.wait 2592000, .call [1] (.releaseSlashEscrow [1] 10), .call [10] (.appealSlash 10),
    .call [3] (.vouch 3 10 1000000 100 0), .call [4] (.vouch 4 10 1000000 100 0), .call [5] (.vouch 5 10 stake 100 0),
    .call [6] (.vouch 6 10 1000000 100 0), .call [3] (.voteAppeal 3 10 true), .call [4] (.voteAppeal 4 10 true),
    .call [6] (.withdrawVouch 6 10)]

theorem goes_of_any {σ : Type} {x : Contract σ Unit} {ctx : Context} {s : σ} {P : σ → Bool}
    (h : (x ctx s).toOption.any (fun p => P p.2) = true) : Goes x ctx s fun _ t => P t = true := by
  cases hrun : x ctx s with
  | ok p =>
    rw [hrun] at h
    exact .of_run hrun h
  | error e =>
    rw [hrun] at h
    cases h

/-- The escrow of that appeal. -/
def reappealedEscrow : SlashEscrow :=
  { borrower := 10, loanId := 1, escrowAmount := 500000, releaseTimestamp := 4196800, status := .pending }

/-- Of stakes of 1000000, 1000000 and 500000 the proportions are whole basis points. -/
theorem appeal_payout_exact_even :
    let s := (start.play (reappealed 500000)).store
    let amounts := returnedAmounts 500000 2500000 0 (s.records 10)
    ∃ t, finalizeAppealInternal 10 ⟨(start.play (reappealed 500000)).world, []⟩ s = .ok ((), t) ∧
      amounts = [200000, 200000, 100000] ∧ PaysEscrow 500000 2500000 (s.records 10) amounts := by
  intro s amounts
  obtain ⟨_, t, hrun, happroved⟩ : Goes (finalizeAppealInternal 10) ⟨(start.play (reappealed 500000)).world, []⟩ s
      fun _ t => decide (t.slashing.slashEscrow 10 =
        some (.appealed { reappealedEscrow with status := .approved })) = true := goes_of_any (by decide +kernel)
  have hescrow : s.slashing.slashEscrow 10 = some (.appealed reappealedEscrow) := by decide +kernel
  have hsome : (s.book.getLatestLoanRecord 10).isSome = true := by decide +kernel
  obtain ⟨loan, hloan⟩ := Option.isSome_iff_exists.1 hsome
  have hstakes : ∀ v ∈ s.records 10, 0 ≤ v.stake := by decide +kernel
  have htotal : stakeSum (s.records 10) = 2500000 := by decide +kernel
  have hexact := (appeal_payout_exact_iff hescrow hloan (by decide) hstakes hrun (of_decide_eq_true happroved)).2.2
  rw [htotal] at hexact
  exact ⟨t, hrun, by decide +kernel, hexact (by decide +kernel)⟩

/-- Of stakes of 1000000, 1000000 and 700000 the first has a right to 185185, and gets 185150. -/
theorem appeal_payout_short :
    ¬ ∀ (ctx : Context) (s t : Store) (b : Address) (escrow : SlashEscrow),
      s.slashing.slashEscrow b = some (.appealed escrow) → 0 ≤ escrow.escrowAmount → (∀ v ∈ s.records b, 0 ≤ v.stake) →
      finalizeAppealInternal b ctx s = .ok ((), t) →
      t.slashing.slashEscrow b = some (.appealed { escrow with status := .approved }) →
      PaysEscrow escrow.escrowAmount (stakeSum (s.records b)) (s.records b)
        (returnedAmounts escrow.escrowAmount (stakeSum (s.records b)) 0 (s.records b)) := by
  intro hall
  let s := (start.play (reappealed 700000)).store
  obtain ⟨_, t, hrun, happroved⟩ : Goes (finalizeAppealInternal 10) ⟨(start.play (reappealed 700000)).world, []⟩ s
      fun _ t => decide (t.slashing.slashEscrow 10 =
        some (.appealed { reappealedEscrow with status := .approved })) = true := goes_of_any (by decide +kernel)
  have hescrow : s.slashing.slashEscrow 10 = some (.appealed reappealedEscrow) := by decide +kernel
  have hstakes : ∀ v ∈ s.records 10, 0 ≤ v.stake := by decide +kernel
  have hpays := hall _ s t 10 _ hescrow (by decide) hstakes hrun (of_decide_eq_true happroved)
  have hshort : ¬ ∀ p ∈ (s.records 10).zip (returnedAmounts 500000 (stakeSum (s.records 10)) 0 (s.records 10)),
      500000 * p.1.stake / stakeSum (s.records 10) ≤ p.2 := by decide +kernel
  exact hshort hpays.share

end QuorumCredit
