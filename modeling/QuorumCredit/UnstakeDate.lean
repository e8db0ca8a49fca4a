import QuorumCredit.StakingSolvency
/-!
# The date an unstake is announced for

`queue_unstake` returns the time from which `process_unstake` releases what was
queued. The delay is counted from the last action on the position, though, and
staking more or claiming yield is one: it moves the release on.
-/

open Host Function

namespace QuorumCredit

variable {p : Nat} {a : Address}

/-! ## What a call does to a position -/

/-- The position the call acts on. -/
def StakingOp.actsOn : StakingOp → Option (Nat × Address)
  | .stakeCapital p a _ | .queueUnstake p a _ | .processUnstake p a | .claimYield p a => some (p, a)
  | _ => none

/-- Positions are stored under their stakers. -/
def StakingPools.OwnKeys (g : StakingPools) : Prop := ∀ p a x, g.stakingPoolStake p a = some x → x.staker = a

theorem StakingPools.OwnKeys.staker_load {g : StakingPools} (h : g.OwnKeys) (p : Nat) (a : Address) :
    (g.loadPosition p a).staker = a := by
  unfold loadPosition
  cases hx : g.stakingPoolStake p a with
  | none => rfl
  | some x => exact h p a x hx

/-- A call on a position stores it, with its staker kept and the time of the call. -/
structure Stamped (now : Nat) (g g' : StakingPools) (p : Nat) (a : Address) (x : StakerPosition) : Prop where
  staker : x.staker = (g.loadPosition p a).staker
  stamp : x.lastActionTimestamp = now
  stored : g'.stakingPoolStake = (g.savePosition p x).stakingPoolStake

variable {s : Situated World StakingStore} {signers : List Address} {op : StakingOp} {t : StakingStore}

theorem stamped_of (hop : op.actsOn = some (p, a)) (he : stakingPools.exec s signers op = some t) :
    ∃ x, Stamped s.world.now s.store.pools t.pools p a x := by
  cases stakingEffect_of he with
  | staked _ _ ht | queued _ _ _ ht | processed _ _ ht _ | claimed _ _ ht _ =>
    obtain ⟨rfl, rfl⟩ := Prod.mk.inj (Option.some.inj hop)
    have hstored := congrArg StakingPools.stakingPoolStake ht
    refine ⟨_, ?_, ?_, hstored⟩ <;> rfl
  | created | distributed | lost | closed => cases hop

/-- The other calls leave all positions as they are. -/
theorem positions_kept (hop : op.actsOn = none) (he : stakingPools.exec s signers op = some t) :
    t.pools.stakingPoolStake = s.store.pools.stakingPoolStake := by
  cases stakingEffect_of he with
  | created _ _ _ ht => rw [ht]; rfl
  | distributed _ _ _ _ _ _ _ ht => rw [ht]; rfl
  | lost _ _ _ ht => rw [ht]; rfl
  | closed _ ht => rw [ht]; rfl
  | staked | queued | processed | claimed => cases hop

/-- The time of the last action on the position. -/
def StakingPools.lastAction (g : StakingPools) (p : Nat) (a : Address) : Nat := (g.loadPosition p a).lastActionTimestamp

/-- A call on the position, and no other, sets its last action, to the time of the call. -/
theorem lastAction_of (hkeys : s.store.pools.OwnKeys) (he : stakingPools.exec s signers op = some t) :
    t.pools.OwnKeys ∧ ∀ p a, t.pools.lastAction p a =
      if op.actsOn = some (p, a) then s.world.now else s.store.pools.lastAction p a := by
  cases hop : op.actsOn with
  | none =>
    have hkept := positions_kept hop he
    refine ⟨fun p a x hx => hkeys p a x (hkept ▸ hx), fun p a => ?_⟩
    rw [if_neg (fun h => by cases h), StakingPools.lastAction, StakingPools.loadPosition, hkept]
    rfl
  | some q =>
    obtain ⟨p, a⟩ := q
    obtain ⟨x, hx⟩ := stamped_of hop he
    have hstaker : x.staker = a := hx.staker.trans (hkeys.staker_load p a)
    have hload : ∀ q b, t.pools.loadPosition q b = (s.store.pools.savePosition p x).loadPosition q b := by
      intro q b
      rw [StakingPools.loadPosition, hx.stored]
      rfl
    refine ⟨fun q b y hy => ?_, fun q b => ?_⟩
    · rw [hx.stored] at hy
      by_cases hq : q = p
      · subst hq
        simp only [StakingPools.savePosition, update_self] at hy
        by_cases hb : b = x.staker
        · subst hb
          rw [update_self] at hy
          rw [← Option.some.inj hy]
        · rw [update_of_ne hb] at hy
          exact hkeys q b y hy
      · simp only [StakingPools.savePosition, update_of_ne hq] at hy
        exact hkeys q b y hy
    · rw [StakingPools.lastAction, hload, StakingPools.loadPosition_savePosition, hstaker]
      by_cases hown : q = p ∧ b = a
      · obtain ⟨rfl, rfl⟩ := hown
        rw [if_pos ⟨rfl, rfl⟩, if_pos rfl, hx.stamp]
      · rw [if_neg hown, if_neg fun h => hown ?_]
        · rfl
        · obtain ⟨rfl, rfl⟩ := Prod.mk.inj (Option.some.inj h)
          exact ⟨rfl, rfl⟩

/-! ## The date kept -/

/-- The date announced for the position after a call at `now` that goes through: the
one `queue_unstake` returns, and none once what was queued is processed. -/
def StakingOp.dateAfter (p : Nat) (a : Address) (now : Nat) (date : Option Nat) : StakingOp → Option Nat
  | .queueUnstake q b _ => if q = p ∧ b = a then some (now + stakingUnstakeDelaySecs) else date
  | .processUnstake q b => if q = p ∧ b = a then none else date
  | _ => date

/-- What `queue_unstake` returned last for the position, if what it queued has not been processed. -/
def unstakeDate (p : Nat) (a : Address) : List StakingEntry → Option Nat :=
  stakingPools.replay (fun s op _ date => op.dateAfter p a s.world.now date) none

/-- The check of the delay in `process_unstake`. -/
def StakerPosition.Ready (x : StakerPosition) (now : Nat) : Prop :=
  stakingUnstakeDelaySecs ≤ now - x.lastActionTimestamp

/-- From the announced date on, whatever time it is by then, the delay has passed. -/
def DateHonoured (p : Nat) (a : Address) (h : List StakingEntry) (s : Situated World StakingStore) : Prop :=
  ∀ date ∈ unstakeDate p a h, ∀ now, s.world.now ≤ now → date ≤ now → (s.store.pools.loadPosition p a).Ready now

/-- The call acts on the position and leaves what is queued: it stakes or claims. -/
def StakingOp.restarts (p : Nat) (a : Address) : StakingOp → Bool
  | .stakeCapital q b _ | .claimYield q b => q = p ∧ b = a
  | _ => false

/-- With an unstake announced, the position's other calls are made in the second it was queued. -/
def KeepsDate (p : Nat) (a : Address) (h : List StakingEntry) (s : Situated World StakingStore) (op : StakingOp) :
    Prop :=
  op.restarts p a = true → ∀ date ∈ unstakeDate p a h, s.world.now + stakingUnstakeDelaySecs ≤ date

/-- The delay counted from the last action ends by the announced date. -/
structure Dated (p : Nat) (a : Address) (h : List StakingEntry) (g : StakingPools) : Prop where
  keys : g.OwnKeys
  date : ∀ date ∈ unstakeDate p a h, g.lastAction p a + stakingUnstakeDelaySecs ≤ date

section

variable {h : List StakingEntry}

theorem Dated.honoured (hd : Dated p a h s.store.pools) : DateHonoured p a h s := by
  intro date hdate now _ hnow
  have hends := hd.date date hdate
  change stakingUnstakeDelaySecs ≤ now - s.store.pools.lastAction p a
  omega

theorem unstakeDate_call (he : stakingPools.exec s signers op = some t) :
    unstakeDate p a ((s, .call signers op) :: h) = op.dateAfter p a s.world.now (unstakeDate p a h) :=
  Component.replay_call he _ _ _

theorem unstakeDate_idle {e : Event World (List Address) StakingStore StakingOp}
    (hnone : stakingPools.done s e = none) : unstakeDate p a ((s, e) :: h) = unstakeDate p a h :=
  Component.replay_idle hnone _ _ _

/-- Staking and claiming leave the date. -/
theorem unstakeDate_restarts (hop : op.restarts p a = true) (he : stakingPools.exec s signers op = some t) :
    unstakeDate p a ((s, .call signers op) :: h) = unstakeDate p a h := by
  rw [unstakeDate_call he]
  cases op with
  | stakeCapital | claimYield => rfl
  | createStakingPool | queueUnstake | processUnstake | distributeYield | applyStakingPoolLoss | closeStakingPool =>
    cases hop

theorem StakingOp.actsOn_of_restarts (hop : op.restarts p a = true) : op.actsOn = some (p, a) := by
  cases op with
  | stakeCapital q b | claimYield q b =>
    obtain ⟨rfl, rfl⟩ := of_decide_eq_true hop
    rfl
  | createStakingPool | queueUnstake | processUnstake | distributeYield | applyStakingPoolLoss | closeStakingPool =>
    cases hop

theorem Dated.call (hd : Dated p a h s.store.pools) (hok : KeepsDate p a h s op)
    (he : stakingPools.exec s signers op = some t) : Dated p a ((s, .call signers op) :: h) t.pools := by
  obtain ⟨hkeys, hlast⟩ := lastAction_of hd.keys he
  refine ⟨hkeys, fun date hdate => ?_⟩
  rw [hlast p a]
  by_cases hrestarts : op.restarts p a = true
  · rw [unstakeDate_restarts hrestarts he] at hdate
    rw [if_pos (StakingOp.actsOn_of_restarts hrestarts)]
    exact hok hrestarts date hdate
  · rw [unstakeDate_call he] at hdate
    by_cases hacts : op.actsOn = some (p, a)
    · -- queued just now, or just processed
      rw [if_pos hacts]
      cases op with
      | queueUnstake q b =>
        obtain ⟨rfl, rfl⟩ := Prod.mk.inj (Option.some.inj hacts)
        simp only [StakingOp.dateAfter, and_self, if_true, Option.mem_some_iff] at hdate
        exact hdate.le
      | processUnstake q b =>
        obtain ⟨rfl, rfl⟩ := Prod.mk.inj (Option.some.inj hacts)
        simp [StakingOp.dateAfter] at hdate
      | stakeCapital q b | claimYield q b =>
        obtain ⟨rfl, rfl⟩ := Prod.mk.inj (Option.some.inj hacts)
        exact absurd (decide_eq_true ⟨rfl, rfl⟩) hrestarts
      | createStakingPool | distributeYield | applyStakingPoolLoss | closeStakingPool => cases hacts
    · rw [if_neg hacts]
      refine hd.date date ?_
      cases op with
      | queueUnstake q b | processUnstake q b =>
        have hother : ¬ (q = p ∧ b = a) := fun h => hacts (by rw [h.1, h.2]; rfl)
        simpa only [StakingOp.dateAfter, if_neg hother] using hdate
      | stakeCapital | claimYield | createStakingPool | distributeYield | applyStakingPoolLoss | closeStakingPool =>
        exact hdate

/-- A call of the position's staker after which the date is honoured was made in time. -/
theorem keepsDate_of_honoured (hd : Dated p a h s.store.pools) (he : stakingPools.exec s signers op = some t)
    (hafter : DateHonoured p a ((s, .call signers op) :: h) ⟨s.world, t⟩) : KeepsDate p a h s op := by
  intro hrestarts date hdate
  obtain ⟨-, hlast⟩ := lastAction_of hd.keys he
  rw [← unstakeDate_restarts hrestarts he] at hdate
  have hready := hafter date hdate (max s.world.now date) (le_max_left ..) (le_max_right ..)
  have hstamp : (t.pools.loadPosition p a).lastActionTimestamp = s.world.now := by
    have hown := hlast p a
    rwa [if_pos (StakingOp.actsOn_of_restarts hrestarts)] at hown
  rw [StakerPosition.Ready, hstamp] at hready
  have hdelay : 0 < stakingUnstakeDelaySecs := by decide
  omega

end

section

variable {world : World} {access : Access} {bank : Ledger} {reserve : Int} {h : List StakingEntry}

/-- In every run, an announced date is honoured at all times exactly if, while the
unstake waits, its staker neither stakes more nor claims yield in the pool later
than in the second it was queued. -/
theorem unstake_date_honoured_iff (hr : Run stakingPools.Step (stakingStart world access bank reserve) h s) :
    Always (DateHonoured p a) h s ↔ Throughout (fun h => stakingPools.WhenDone (KeepsDate p a h)) h := by
  refine Run.always_iff_of_inv (I := fun h s => Dated p a h s.store.pools) ?_ (fun hd => hd.honoured) ?_ ?_ hr
  · exact ⟨fun _ _ _ hx => (by cases hx), fun _ hdate => (by cases hdate)⟩
  · intro h s e s' _ hd hst hok
    rcases hst.cases with ⟨signers, op, rfl, he, hw⟩ | ⟨hnone, rfl⟩ | ⟨hnone, -, -, hpools⟩
    · exact hd.call (hok _ (Component.done_call he)) he
    · exact ⟨hd.keys, by rw [unstakeDate_idle hnone]; exact hd.date⟩
    · rw [hpools]
      exact ⟨hd.keys, by rw [unstakeDate_idle hnone]; exact hd.date⟩
  · intro h s e s' _ hd hst hafter
    rcases hst.cases with ⟨signers, op, rfl, he, hw⟩ | ⟨hnone, -⟩ | ⟨hnone, -⟩
    · obtain ⟨w, t⟩ := s'
      cases hw
      exact Component.whenDone_call (keepsDate_of_honoured hd he hafter) signers
    · exact Component.whenDone_idle hnone
    · exact Component.whenDone_idle hnone

end

/-! ## Between queueing and processing -/

/-- Account 2 has 100 of pool 1 and queues 50; a day later the date has come. -/
def queuedHalf : List (List Address × StakingOp) :=
  [([1], .createStakingPool [1] 100), ([2], .stakeCapital 1 2 100), ([2], .queueUnstake 1 2 50)]

def queuedHistory : List StakingEntry := (daily (stakingStart sampleWorld .open sampleBank 1000) [] queuedHalf).1

def queuedState : Situated World StakingStore :=
  (daily (stakingStart sampleWorld .open sampleBank 1000) [] queuedHalf).2

theorem run_queued : Run stakingPools.Step (stakingStart sampleWorld .open sampleBank 1000) queuedHistory queuedState :=
  run_daily .nil queuedHalf

instance (h : List StakingEntry) (s : Situated World StakingStore) (op : StakingOp) :
    Decidable (KeepsDate p a h s op) := inferInstanceAs (Decidable (_ → _))

/-- Yield is distributed and account 3 stakes: the date of account 2 is honoured. -/
theorem unstake_date_honoured_others :
    ∃ h s, Run stakingPools.Step (stakingStart sampleWorld .open sampleBank 1000) h s ∧
      unstakeDate 1 2 h = some queuedState.world.now ∧ Always (DateHonoured 1 2) h s := by
  have hr := Component.run_play _ run_queued [([1], .distributeYield [1] 1 30), ([3], .stakeCapital 1 3 200)]
  exact ⟨_, _, hr, by decide +kernel, (unstake_date_honoured_iff hr).2 (by decide +kernel)⟩

/-- Account 2 stakes 1 more on the date, and is not let out. -/
theorem unstake_date_moved :
    ∃ h s, Run stakingPools.Step (stakingStart sampleWorld .open sampleBank 1000) h s ∧
      unstakeDate 1 2 h = some s.world.now ∧ (s.store.pools.loadPosition 1 2).pendingUnstake = true ∧
      (stakingPools.exec s [2] (.processUnstake 1 2)).isNone = true ∧ ¬ Always (DateHonoured 1 2) h s := by
  have hr := Component.run_play _ run_queued [([2], .stakeCapital 1 2 1)]
  refine ⟨_, _, hr, by decide +kernel, by decide +kernel, by decide +kernel, fun hhonoured => ?_⟩
  have hkept := (unstake_date_honoured_iff hr).1 hhonoured
  exact absurd hkept (by decide +kernel)

end QuorumCredit
