import QuorumCredit.VoteStakes
import Mathlib.Tactic.Linarith
import Mathlib.Tactic.Ring
/-!
# The quorum of a slash

A slash is approved by a share of the stake behind the borrower, in basis points.
`vote_slash` rounds the approving share up and compares it with the quorum;
`execute_slash_vote` rounds the quorum of the stake up and compares it with the
approving stake. The first accepts a share that is short of the quorum by less
than one basis point, and the second a vote on no stake at all.
-/

open Host Function

namespace QuorumCredit

/-! ## The two tests -/

section

variable {ctx : Context} {x : Ballots} {approveStake totalStake : Int}

/-- When `vote_slash` accepts, in the words of the code. -/
theorem quorumReached_iff : quorumReached approveStake totalStake ctx x = .ok (true, x) ↔
    0 < totalStake ∧ FitsI128 (approveStake * bpsDenominator) ∧
      FitsI128 (approveStake * bpsDenominator + totalStake) ∧
      (quorumBps ctx.toWorld : Int) ≤ (approveStake * bpsDenominator + totalStake - 1).tdiv totalStake := by
  unfold quorumReached
  rw [run_bind_ok (run_ask _ _)]
  by_cases hpos : 0 < totalStake
  · by_cases hproduct : FitsI128 (approveStake * bpsDenominator)
    · by_cases hsum : FitsI128 (approveStake * bpsDenominator + totalStake)
      · simp [hpos, hproduct, hsum, i128_of_fits, run_pure]
      · simp only [if_pos hpos, i128_of_fits _ hproduct, i128_of_not_fits _ hsum, pure_bind, run_bind, run_fail]
        simp [hsum]
    · simp [hpos, hproduct, i128_of_not_fits, run_bind, run_fail]
  · simp [hpos, run_pure]

/-- The share rounded up reaches the quorum exactly when the share is within one
basis point of it. -/
theorem reached_iff (happrove : 0 ≤ approveStake) :
    quorumReached approveStake totalStake ctx x = .ok (true, x) ↔
      0 < totalStake ∧ approveStake * 10000 + totalStake ≤ i128Max ∧
        (quorumBps ctx.toWorld - 1) * totalStake < approveStake * 10000 := by
  have hmin : i128Min ≤ 0 := by decide
  have hdiv (hpos : 0 < totalStake) :
      (quorumBps ctx.toWorld : Int) ≤ (approveStake * bpsDenominator + totalStake - 1).tdiv totalStake ↔
        (quorumBps ctx.toWorld - 1) * totalStake < approveStake * 10000 := by
    have hnum : 0 ≤ approveStake * bpsDenominator + totalStake - 1 := by
      simp only [bpsDenominator]
      omega
    rw [Int.tdiv_eq_ediv_of_nonneg hnum, Int.le_ediv_iff_mul_le hpos, sub_mul, one_mul]
    simp only [bpsDenominator]
    omega
  rw [quorumReached_iff]
  unfold FitsI128
  constructor
  · rintro ⟨hpos, -, hsum, hreach⟩
    exact ⟨hpos, hsum.2, (hdiv hpos).1 hreach⟩
  · rintro ⟨hpos, hsum, hreach⟩
    simp only [bpsDenominator]
    exact ⟨hpos, ⟨by omega, by omega⟩, ⟨by omega, hsum⟩, (hdiv hpos).2 hreach⟩

/-- The quorum of the stake rounded up is met exactly when the quorum is, as far as 128 bits can hold it. -/
theorem quorumStake_le_iff (w : World) (happrove : 0 ≤ approveStake) (htotal : 0 ≤ totalStake) :
    quorumStake w totalStake ≤ approveStake ↔
      min (quorumBps w * totalStake) (i128Max - 9999) ≤ approveStake * 10000 := by
  have hmin : i128Min ≤ 0 := by decide
  have hmax : i128Max = 170141183460469231731687303715884105727 := by decide
  have hproduct : 0 ≤ totalStake * quorumBps w := Int.mul_nonneg htotal (Int.natCast_nonneg _)
  have hceil (n : Int) (hn : 0 ≤ n) : n.tdiv bpsDenominator ≤ approveStake ↔ n < (approveStake + 1) * 10000 := by
    rw [Int.tdiv_eq_ediv_of_nonneg hn, Int.le_iff_lt_add_one, Int.ediv_lt_iff_lt_mul (by decide)]
    rfl
  unfold quorumStake
  rw [mul_comm (quorumBps w : Int)]
  generalize totalStake * (quorumBps w : Int) = product at *
  by_cases hfits : FitsI128 product
  · by_cases hsum : FitsI128 (product + (bpsDenominator - 1))
    · simp only [if_pos hfits, if_pos hsum]
      rw [hceil _ (by simp only [bpsDenominator]; omega)]
      unfold FitsI128 at hsum
      simp only [bpsDenominator] at *
      omega
    · simp only [if_pos hfits, if_neg hsum]
      rw [hceil _ (by decide)]
      unfold FitsI128 at hsum
      simp only [bpsDenominator] at *
      omega
  · have hover : ¬ FitsI128 (i128Max + (bpsDenominator - 1)) := by decide
    simp only [if_neg hfits, if_neg hover]
    rw [hceil _ (by decide)]
    unfold FitsI128 at hfits
    omega

/-- The pairs on which the tests agree: there is a stake to vote with, and the
approving share is not short of the quorum by less than one basis point; where
`vote_slash` overflows, and refuses, the quorum is not met. -/
def TestsAgree (quorum : Nat) (approveStake totalStake : Int) : Prop :=
  0 < totalStake ∧
    if approveStake * 10000 + totalStake ≤ i128Max then
      ¬ ((quorum - 1) * totalStake < approveStake * 10000 ∧ approveStake * 10000 < quorum * totalStake)
    else approveStake * 10000 < min (quorum * totalStake) (i128Max - 9999)

instance (quorum : Nat) (approveStake totalStake : Int) : Decidable (TestsAgree quorum approveStake totalStake) :=
  inferInstanceAs (Decidable (_ ∧ ite _ _ _))

/-- A quorum is a 32-bit number, so only a large stake takes the product out of range. -/
theorem product_small {quorum : Nat} (hquorum : quorum ≤ u32Max) (htotal : 0 ≤ totalStake)
    (hsmall : totalStake < 10000) :
    quorum * totalStake < i128Max - 9999 := by
  have hle : (quorum : Int) * totalStake ≤ u32Max * 9999 :=
    mul_le_mul (Int.ofNat_le.2 hquorum) (by omega) htotal (Int.natCast_nonneg _)
  have hbound : (u32Max : Int) * 9999 < i128Max - 9999 := by decide
  omega

theorem tests_agree_iff (hquorum : quorumBps ctx.toWorld ≤ u32Max) (happrove : 0 ≤ approveStake)
    (htotal : 0 ≤ totalStake) :
    (quorumReached approveStake totalStake ctx x = .ok (true, x) ↔ quorumStake ctx.toWorld totalStake ≤ approveStake) ↔
      TestsAgree (quorumBps ctx.toWorld) approveStake totalStake := by
  rw [reached_iff happrove, quorumStake_le_iff _ happrove htotal, TestsAgree]
  have hmax : i128Max = 170141183460469231731687303715884105727 := by decide
  have hsmall := product_small hquorum htotal
  rw [sub_mul, one_mul]
  have hproduct : 0 ≤ (quorumBps ctx.toWorld : Int) * totalStake := Int.mul_nonneg (Int.natCast_nonneg _) htotal
  have hzero : totalStake = 0 → (quorumBps ctx.toWorld : Int) * totalStake = 0 := fun h => by rw [h, mul_zero]
  generalize (quorumBps ctx.toWorld : Int) * totalStake = product at *
  split <;> omega

end

/-! ## What a vote and an execution find -/

section Calls

variable {ctx : Context} {s : Store}

theorem quorumReached_run (approveStake totalStake : Int) (x : Ballots) :
    Yields (quorumReached approveStake totalStake) ctx x fun reached x' =>
      x' = x ∧ quorumReached approveStake totalStake ctx x = .ok (reached, x) := by
  intro reached x' hrun
  have hkept : Yields (quorumReached approveStake totalStake) ctx x fun _ x' => x' = x := by
    simp only [quorumReached, yields_steps]
    split <;> simp
  obtain rfl := hkept reached x' hrun
  exact ⟨rfl, hrun⟩

/-- The stake `approveStake` reaches the quorum of `totalStake` by the test of `vote_slash`. -/
def Reaches (w : World) (approveStake totalStake : Int) : Prop :=
  ∀ ctx : Context, ctx.toWorld = w → ∀ x, quorumReached approveStake totalStake ctx x = .ok (true, x)

theorem reaches_of {approveStake totalStake : Int} {x : Ballots}
    (h : quorumReached approveStake totalStake ctx x = .ok (true, x)) :
      Reaches ctx.toWorld approveStake totalStake := by
  intro ctx' hworld x'
  rw [quorumReached_iff] at h ⊢
  rw [hworld]
  exact h

/-- A pending slash is left by a vote whose record reaches the quorum of the vouches. -/
structure Decided (w : World) (s : Store) (voter b : Address) (t : Store) : Prop where
  votes : s.ballots.resolveVoteDelegation voter = voter
  reaches : Reaches w (t.ballots.voteOn b).approveStake (stakeSum (s.records b))

theorem recordVote_decided (b : Address) (vote : SlashVoteRecord) (totalStake : Int) (x : Ballots) :
    Yields (recordVote b vote totalStake) ctx x fun _ x' =>
      x'.pendingSlash = x.pendingSlash ∨
        (∃ p, x'.pendingSlash = update x.pendingSlash b (some p)) ∧
          Reaches ctx.toWorld (x'.voteOn b).approveStake totalStake := by
  unfold recordVote
  simp only [yields_steps]
  refine (quorumReached_run _ _ _).mono ?_
  rintro reached _ ⟨rfl, hreached⟩
  split
  case isTrue htrue =>
    simp only [yields_bind, yields_setSlashVote, yields_u64, yields_setPendingSlash]
    intro _
    refine .inr ⟨⟨_, rfl⟩, ?_⟩
    simp only [Ballots.voteOn, update_self, Option.getD_some]
    exact reaches_of (htrue ▸ hreached)
  case isFalse =>
    rw [yields_setSlashVote]
    exact .inl rfl

theorem castVote_decided (voter b : Address) (approve : Bool) (vouches : List VouchRecord) (book : LoanBook)
    (x : Ballots) :
    Yields (castVote voter b approve vouches book) ctx x fun _ x' =>
      x'.pendingSlash = x.pendingSlash ∨
        (∃ p, x'.pendingSlash = update x.pendingSlash b (some p)) ∧
          Reaches ctx.toWorld (x'.voteOn b).approveStake (stakeSum vouches) := by
  unfold castVote
  simp only [yields_steps, id_eq]
  intro own _
  refine (yields_sumI128 _ _ _ _ _).mono ?_
  rintro totalStake _ ⟨rfl, rfl⟩
  refine (yields_sumI128 _ _ _ _ _).mono ?_
  rintro stake _ ⟨-, rfl⟩
  have hopen (y : Ballots) : Yields (openVote y book b) ctx y fun _ y' => y' = y := by
    simp [openVote, yields_ite]
  refine (hopen _).mono ?_
  rintro vote _ rfl
  simp only [addVote, yields_steps, yields_i128, zero_add]
  intro _ _ _
  exact recordVote_decided b _ _ _

/-- A vote leaves a pending slash only where its record reaches the quorum of the vouches. -/
theorem voteSlash_decided (voter b : Address) (approve : Bool) :
    Yields (voteSlash voter b approve) ctx s fun _ t =>
      t.ballots.pendingSlash = s.ballots.pendingSlash ∨
        (∃ p, t.ballots.pendingSlash = update s.ballots.pendingSlash b (some p)) ∧
          Decided ctx.toWorld s voter b t := by
  refine yields_voteSlash (fun _ _ t ht => ?_) fun _ _ _ hvotes => ?_
  · exact .inl (congrArg Ballots.pendingSlash ht)
  · refine (castVote_decided _ _ _ _ _ _).mono ?_
    rintro _ x hdecided t rfl
    exact hdecided.imp id fun h => ⟨h.1, hvotes, h.2⟩

/-- An execution by the vote meets the quorum of the vouches it finds. -/
theorem executeSlashVote_met (b : Address) :
    Yields (executeSlashVote b) ctx s fun _ _ =>
      quorumStake ctx.toWorld (stakeSum (s.records b)) ≤ (s.ballots.voteOn b).approveStake := by
  unfold executeSlashVote
  simp only [yields_bind, yields_ask, yields_look, yields_orFail, yields_require, lift_eq_zoom, lift_self]
  refine yields_keeps₂ Store.ballots Store.vault fun _ s₁ h₁ k₁ => ?_
  rw [h₁, k₁]
  intro vote hvote _
  refine (yields_sumI128 _ _ _ _ _).mono ?_
  rintro total _ ⟨htotal, rfl⟩ hmet _ _ _ _ _ _
  rw [htotal, zero_add] at hmet
  rw [Ballots.voteOn, hvote]
  exact hmet

end Calls

theorem decided_of {s : State} {signers : List Address} {voter b : Address} {approve : Bool} {t : Store}
    (hd : exec ⟨signers, .voteSlash voter b approve⟩ s = .ok t) :
    t.ballots.pendingSlash = s.store.ballots.pendingSlash ∨
      (∃ p, t.ballots.pendingSlash = update s.store.ballots.pendingSlash b (some p)) ∧
        Decided s.world s.store voter b t := by
  refine yields_exec (Q := fun _ t => t.ballots.pendingSlash = s.store.ballots.pendingSlash ∨
    (∃ p, t.ballots.pendingSlash = update s.store.ballots.pendingSlash b (some p)) ∧
      Decided s.world s.store voter b t) ?_ hd
  simp only [dispatch, discard, yields_steps]
  exact voteSlash_decided voter b approve

theorem met_of {s : State} {signers : List Address} {b : Address} {t : Store}
    (hd : exec ⟨signers, .executeSlashVote b⟩ s = .ok t) :
    quorumStake s.world (stakeSum (s.store.records b)) ≤ (s.store.ballots.voteOn b).approveStake := by
  refine yields_exec (Q := fun _ _ => quorumStake s.world (stakeSum (s.store.records b)) ≤
    (s.store.ballots.voteOn b).approveStake) ?_ hd
  exact executeSlashVote_met b

/-! ## What approves a slash -/

theorem BallotEffect.stakeFor {s : Store} {op : Op} {x : Ballots} (he : BallotEffect s op x)
    (hop : ∀ voter b approve, op ≠ .voteSlash voter b approve) (b : Address) (side : Bool) :
    (x.voteOn b).stakeFor side = (s.ballots.voteOn b).stakeFor side := by
  cases he with
  | kept _ => rfl
  | delegated => rfl
  | revoked => rfl
  | deferred _ _ => rfl
  | counted _ _ _ => exact absurd rfl (hop _ _ _)
  | decided _ _ _ _ => exact absurd rfl (hop _ _ _)
  | @executedVote borrower vote hvote _ =>
    by_cases hb : b = borrower
    · subst hb
      simp [Ballots.voteOn, hvote, SlashVoteRecord.stakeFor]
    · simp [Ballots.voteOn, hb]
  | executedPending _ _ => rfl

/-- A call counts a vote on `b` or leaves the sides of the vote as they are. -/
theorem vote_cases {s : State} {c : Call} {t : Store} (hd : exec c s = .ok t) (b : Address) :
    (countedVote b (s, .call c) = none ∧
      ∀ side, (t.ballots.voteOn b).stakeFor side = (s.store.ballots.voteOn b).stakeFor side) ∨
    ∃ voter approve, c.op = .voteSlash voter b approve ∧ s.store.ballots.resolveVoteDelegation voter = voter ∧
      countedVote b (s, .call c) = some ⟨s.store, voter, approve⟩ ∧
      Counted (s.store.ballots.voteOn b) (t.ballots.voteOn b) voter (stakeSum (s.store.carried b voter)) approve := by
  by_cases hvote : ∃ voter b' approve, c.op = .voteSlash voter b' approve
  · obtain ⟨signers, op⟩ := c
    obtain ⟨voter, b', approve, rfl⟩ := hvote
    rcases voteSlash_cases hd b with ⟨hnone, hkept⟩ | ⟨rfl, hvotes, hsome, own, hown, -, hcounted⟩
    · exact .inl ⟨hnone, fun _ => by rw [hkept]⟩
    · refine .inr ⟨voter, approve, rfl, hvotes, hsome, ?_⟩
      rw [carried_of hown]
      exact hcounted
  · have hother : ∀ voter b' approve, c.op ≠ .voteSlash voter b' approve :=
      fun voter b' approve h => hvote ⟨voter, b', approve, h⟩
    exact .inl ⟨countedVote_other hd hother b, (ballots_of hd).stakeFor hother b⟩

/-- In every run, each side of the vote on `b` adds up the records counted on it. -/
theorem History.sides {h s} (hr : History h s) (b : Address) (side : Bool) :
    (s.store.ballots.voteOn b).stakeFor side = stakeSum (countedOn b side h) := by
  refine History.inv (p := fun _ _ => True)
    (I := fun h s => ∀ side, (s.store.ballots.voteOn b).stakeFor side = stakeSum (countedOn b side h))
    (fun _ _ side => ?_) (fun {h s c t} _ hi hd _ side => ?_) (fun {h s c e} hi he side => ?_)
    (fun {h s world access bank} hi _ _ side => ?_) hr (along_true h) side
  · cases side <;> rfl
  · rcases vote_cases hd b with ⟨hnone, hkept⟩ | ⟨voter, approve, -, -, hsome, hcounted⟩
    · rw [hkept, hi, countedOn_none hnone]
    · rw [hcounted.stakeFor, hi, countedOn_some hsome, stakeSum_append]
      congr 1
      split
      · rfl
      · rfl
  · rw [hi, countedOn_none]
    rw [countedVote, done_error he]
  · rw [countedOn_none rfl]
    exact hi side

/-- A state of the history is one the contract can be in. -/
theorem History.visited {h s} (hr : History h s) {t : State} {m : Move} (hmem : (t, m) ∈ h) : Reachable t := by
  obtain ⟨world, bank, hr⟩ := hr
  obtain ⟨post, pre, rfl⟩ := List.append_of_mem hmem
  exact ⟨pre, world, bank, (Run.split hr).1⟩

theorem stakeSum_nonneg {vouches : List VouchRecord} (h : ∀ v ∈ vouches, 0 < v.stake) : 0 ≤ stakeSum vouches := by
  refine List.sum_nonneg fun stake hstake => ?_
  obtain ⟨v, hv, rfl⟩ := List.mem_map.1 hstake
  exact (h v hv).le

/-- What was counted was staked. -/
theorem History.counted_staked {h s} (hr : History h s) (b : Address) (side : Bool) :
    ∀ v ∈ countedOn b side h, 0 < v.stake := by
  intro v hv
  obtain ⟨x, hx, hcarried⟩ := List.mem_flatMap.1 hv
  obtain ⟨⟨t, m⟩, hmem, hcounted⟩ := List.mem_filterMap.1 (List.mem_of_mem_filter hx)
  unfold countedVote at hcounted
  split at hcounted
  case h_1 voter b' approve t' hdone =>
    split at hcounted
    case isTrue hvoted =>
      cases hcounted
      exact ((hr.visited hmem).wellFormed b).staked v (mem_of_carried hcarried)
    case isFalse => cases hcounted
  case h_2 => cases hcounted

theorem countedOn_append (b : Address) (side : Bool) (post pre : List (State × Move)) :
    countedOn b side (post ++ pre) = countedOn b side post ++ countedOn b side pre := by
  simp only [countedOn, List.filterMap_append, List.filter_append, List.flatMap_append]

/-- What was counted once stays counted. -/
theorem History.counted_le {post pre s} (hr : History (post ++ pre) s) (b : Address) (side : Bool) :
    stakeSum (countedOn b side pre) ≤ stakeSum (countedOn b side (post ++ pre)) := by
  have hlater : 0 ≤ stakeSum (countedOn b side post) := by
    refine stakeSum_nonneg fun v hv => hr.counted_staked b side v ?_
    rw [countedOn_append]
    exact List.mem_append_left _ hv
  rw [countedOn_append, stakeSum_append]
  omega

/-- A pending slash of the borrower that has not been executed. -/
def Ballots.awaiting (x : Ballots) (b : Address) : Option PendingSlashRecord :=
  (x.pendingSlash b).filter fun p => p.executed = false

/-- The call is a vote that left the pending slash `p` of `b`. -/
def LeavesPending (s : State) (m : Move) (b : Address) (p : PendingSlashRecord) : Prop :=
  ∃ signers voter approve t, m = .call ⟨signers, .voteSlash voter b approve⟩ ∧
    exec ⟨signers, .voteSlash voter b approve⟩ s = .ok t ∧ t.ballots.pendingSlash b = some p ∧
      Decided s.world s.store voter b t

/-- A pending slash was there before, or is left by a vote that reaches the quorum. -/
theorem Step.awaiting {s m s'} (hst : Step s m s') {b : Address} {p : PendingSlashRecord}
    (hp : s'.store.ballots.awaiting b = some p) : s.store.ballots.awaiting b = some p ∨ LeavesPending s m b p := by
  cases hst with
  | @done c t hd =>
    change t.ballots.awaiting b = some p at hp
    have hsame (h : t.ballots.pendingSlash = s.store.ballots.pendingSlash) : s.store.ballots.awaiting b = some p := by
      rw [Ballots.awaiting, ← h]
      exact hp
    obtain ⟨signers, op⟩ := c
    have hballots := ballots_of hd
    by_cases hvote : ∃ voter b' approve, op = .voteSlash voter b' approve
    · obtain ⟨voter, b', approve, rfl⟩ := hvote
      rcases decided_of hd with hkept | ⟨⟨p', hp'⟩, hdecided⟩
      · exact .inl (hsame hkept)
      · by_cases hb : b = b'
        · subst hb
          refine .inr ⟨signers, voter, approve, t, rfl, hd, ?_, hdecided⟩
          rw [Ballots.awaiting, Option.filter_eq_some_iff] at hp
          exact hp.1
        · left
          rw [Ballots.awaiting, hp', update_of_ne hb] at hp
          exact hp
    · left
      simp only at hballots
      generalize t.ballots = x at *
      cases hballots with
      | kept _ => exact hp
      | delegated => exact hp
      | revoked => exact hp
      | deferred _ _ => exact hp
      | counted _ _ _ => exact absurd ⟨_, _, _, rfl⟩ hvote
      | decided _ _ _ _ => exact absurd ⟨_, _, _, rfl⟩ hvote
      | executedVote _ _ => exact hp
      | @executedPending borrower pending _ _ =>
        by_cases hb : b = borrower
        · subst hb
          obtain ⟨hexecuted, hopen⟩ : _ = p ∧ p.executed = false := by simpa [Ballots.awaiting] using hp
          rw [← hexecuted] at hopen
          cases hopen
        · simpa [Ballots.awaiting, hb] using hp
  | refused _ => exact .inl hp
  | elsewhere _ _ => exact .inl hp

/-- A pending slash was left by a vote of the history, and nothing has replaced it since. -/
theorem History.awaiting {h s} (hr : History h s) {b : Address} {p : PendingSlashRecord}
    (hp : s.store.ballots.awaiting b = some p) :
    ∃ post t m pre, h = post ++ (t, m) :: pre ∧ LeavesPending t m b p ∧
      ∀ e ∈ post, e.1.store.ballots.awaiting b = some p := by
  obtain ⟨world, bank, hrun⟩ := hr
  obtain ⟨post, t, m, pre, hsplit, hleaves, hsince⟩ :=
    hrun.written (fun s b => s.store.ballots.awaiting b) LeavesPending (fun _ _ _ => False) (fun _ => rfl)
      (fun hst hp => (hst.awaiting hp).imp (fun h => ⟨h, id⟩) id) hp
  exact ⟨post, t, m, pre, hsplit, hleaves, fun e he => (hsince e he).1⟩

/-! ## Every slash has its quorum -/

/-- The approving stake is the quorum's share of the total, in basis points, or more. -/
def MeetsQuorum (w : World) (approveStake totalStake : Int) : Prop := quorumBps w * totalStake ≤ approveStake * 10000

/-- What approves a slash of `b` in the state `s`, after the history `h`: the votes
meet the quorum when they are executed, or when they left the pending slash that is
executed; and no slash with an empty vouch list goes without approving votes. -/
def Approved (b : Address) (h : List (State × Move)) (s : State) : Op → Prop
  | .executeSlashVote _ =>
    (0 < stakeSum (s.store.records b) →
      MeetsQuorum s.world (stakeSum (countedOn b true h)) (stakeSum (s.store.records b))) ∧
        (s.store.records b = [] → 0 < stakeSum (countedOn b true h))
  | .executePendingSlash _ =>
    (∃ p post t m pre, s.store.ballots.awaiting b = some p ∧ h = post ++ (t, m) :: pre ∧ LeavesPending t m b p ∧
      MeetsQuorum t.world (stakeSum (countedOn b true ((t, m) :: pre))) (stakeSum (t.store.records b))) ∧
        (s.store.records b = [] → 0 < stakeSum (countedOn b true h))
  | _ => True

/-- Every slash the history executes was approved. -/
def SlashesApproved (h : List (State × Move)) : Prop :=
  ∀ post s c pre, h = post ++ (s, .call c) :: pre → (∃ t, exec c s = .ok t) → ∀ b, c.op.executes = some b →
    Approved b pre s c.op

/-- The stake that approves once `voter` has voted. -/
def Store.approving (s : Store) (b voter : Address) (approve : Bool) : Int :=
  (if approve = true then stakeSum (s.carried b voter) else 0) + (s.ballots.voteOn b).approveStake

/-- A vote that is counted, and an execution by the vote, find a pair the tests
agree on; and where no quorum is asked for, a vote does not go without approving stake. -/
def Op.agreed (s : State) : Op → Prop
  | .voteSlash voter b approve => s.store.ballots.resolveVoteDelegation voter = voter →
    TestsAgree (quorumBps s.world) (s.store.approving b voter approve) (stakeSum (s.store.records b)) ∧
      (0 < quorumBps s.world ∨ 0 < s.store.approving b voter approve)
  | .executeSlashVote b =>
    TestsAgree (quorumBps s.world) (s.store.ballots.voteOn b).approveStake (stakeSum (s.store.records b))
  | _ => True

/-- On a pair the tests agree on, each accepts only what meets the quorum. -/
theorem TestsAgree.met {w : World} {approveStake totalStake : Int}
    (h : TestsAgree (quorumBps w) approveStake totalStake) (hquorum : quorumBps w ≤ u32Max)
    (haccepted : Reaches w approveStake totalStake ∨ quorumStake w totalStake ≤ approveStake)
    (happrove : 0 ≤ approveStake) : MeetsQuorum w approveStake totalStake := by
  obtain ⟨hpos, hagree⟩ := h
  have hmax : i128Max = 170141183460469231731687303715884105727 := by decide
  have hsmall := product_small hquorum hpos.le
  have hmet : approveStake * 10000 + totalStake ≤ i128Max ∧ (quorumBps w - 1) * totalStake < approveStake * 10000 ∨
      min (quorumBps w * totalStake) (i128Max - 9999) ≤ approveStake * 10000 := by
    rcases haccepted with hreaches | hstake
    · have hvote := hreaches ⟨w, []⟩ rfl .empty
      rw [reached_iff happrove] at hvote
      exact .inl hvote.2
    · exact .inr ((quorumStake_le_iff w happrove hpos.le).1 hstake)
  unfold MeetsQuorum
  rw [sub_mul, one_mul] at *
  generalize (quorumBps w : Int) * totalStake = product at *
  split at hagree
  case isTrue => omega
  case isFalse => omega

/-- The approving stake of the record a counted vote leaves. -/
theorem approving_of {s : State} {signers : List Address} {voter b : Address} {approve : Bool} {t : Store}
    (hd : exec ⟨signers, .voteSlash voter b approve⟩ s = .ok t)
    (hvotes : s.store.ballots.resolveVoteDelegation voter = voter) :
    (t.ballots.voteOn b).approveStake = s.store.approving b voter approve := by
  obtain ⟨own, new, hown, -, hslash, hcounted⟩ := (voteEffect_of hd).counted hvotes
  have hvoteOn : t.ballots.voteOn b = new := by rw [Ballots.voteOn, hslash, update_self, Option.getD_some]
  have hside := hcounted.stakeFor true
  rw [hvoteOn, Store.approving, carried_of hown]
  cases approve with
  | true => exact hside
  | false => exact hside

/-- The vote that left a pending slash met the quorum, and has approving stake. -/
theorem History.pending_met {pre t m} (hr : History pre t) {b : Address} {p : PendingSlashRecord}
    (hleaves : LeavesPending t m b p) (hquorum : quorumBps t.world ≤ u32Max)
      (hok : WhenDone (fun s op => op.agreed s) t m) :
    MeetsQuorum t.world (stakeSum (countedOn b true ((t, m) :: pre))) (stakeSum (t.store.records b)) ∧
      0 < stakeSum (countedOn b true ((t, m) :: pre)) := by
  obtain ⟨signers, voter, approve, t', rfl, hd, -, hdecided⟩ := hleaves
  obtain ⟨hagree, hsome⟩ := hok ⟨t', hd⟩ hdecided.votes
  have hafter : History ((t, .call ⟨signers, .voteSlash voter b approve⟩) :: pre) { t with store := t' } :=
    hr.step (.done hd)
  have hcounted : (t'.ballots.voteOn b).approveStake =
      stakeSum (countedOn b true ((t, .call ⟨signers, .voteSlash voter b approve⟩) :: pre)) := hafter.sides b true
  have hnonneg := stakeSum_nonneg (hafter.counted_staked b true)
  have happroving := approving_of hd hdecided.votes
  rw [← hcounted] at hnonneg ⊢
  rw [← happroving] at hagree hsome
  have hmet := hagree.met hquorum (.inl hdecided.reaches) hnonneg
  refine ⟨hmet, ?_⟩
  rcases hsome with hasked | happrove
  · have hproduct : 0 < (quorumBps t.world : Int) * stakeSum (t.store.records b) :=
      Int.mul_pos (Int.natCast_pos.2 hasked) hagree.1
    unfold MeetsQuorum at hmet
    omega
  · exact happrove

/-- Account 2's vote alone meets the quorum, and the slash is executed. -/
def votedSlash : List Act := poolLoan ++ [.call [2] (.voteSlash 2 10 true), .call [2] (.executePendingSlash 10)]

/-- Three accounts stake alike behind account 10, and two of them vote to slash it. -/
def twoOfThree : List Act :=
  [.call [2] (.vouch 2 10 1000000 100 0), .call [3] (.vouch 3 10 1000000 100 0), .call [4] (.vouch 4 10 1000000 100 0),
    .call [1] (.createLoanPool [1] [10] [500000]), .call [2] (.voteSlash 2 10 true), .call [3] (.voteSlash 3 10 true)]

/-- Account 10's only voucher votes against a slash and takes the stake back. -/
def rejectedVote : List Act := poolLoan ++ [.call [2] (.voteSlash 2 10 false), .call [2] (.withdrawVouch 2 10)]

end QuorumCredit
