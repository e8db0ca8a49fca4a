import QuorumCredit.StakingBooks
/-!
# What staking pools owe and pay

A loss comes off the pool's total and not off the positions, so from the first one
on the total is less than what is staked, and every later distribution gives the
positions more than it brings. What is paid out stays within the deposits and
yields less the losses as long as every call is fair to the pool.
-/

open Host Function

namespace QuorumCredit

/-- A state of the staking pools, with the call or event that comes next. -/
abbrev StakingEntry := Situated World StakingStore × Event World (List Address) StakingStore StakingOp

/-! ## Flows -/

/-- What a call that goes through counts for. -/
def counted (f : StakingOp → Int) (e : StakingEntry) : Int :=
  match stakingPools.done e.1 e.2 with
  | some (op, _) => f op
  | none => 0

/-- What has gone out to stakers of the pool, if the entry is a call that pays them. -/
def paidIn (p : Nat) (e : StakingEntry) : Int :=
  match stakingPools.done e.1 e.2 with
  | some (op, t) =>
    if op.exits p then
      Bank.outflow t.bank.log e.1.world.contract - Bank.outflow e.1.store.bank.log e.1.world.contract
    else 0
  | none => 0

def depositedTo (p : Nat) (h : List StakingEntry) : Int := (h.map (counted (·.deposits p))).sum
def yieldedTo (p : Nat) (h : List StakingEntry) : Int := (h.map (counted (·.yieldTo p))).sum
def lostFrom (p : Nat) (h : List StakingEntry) : Int := (h.map (counted (·.losses p))).sum
def paidOut (p : Nat) (h : List StakingEntry) : Int := (h.map (paidIn p)).sum

/-- Whose deposit in the pool the entry is. -/
def depositor (p : Nat) (e : StakingEntry) : Option Address :=
  match stakingPools.done e.1 e.2 with
  | some (.stakeCapital p' a _, _) => if p' = p then some a else none
  | _ => none

/-- Those who have staked in the pool. -/
def stakers (p : Nat) (h : List StakingEntry) : List Address := (h.filterMap (depositor p)).dedup

/-- The call takes nothing from what the stakers of the pool are owed together,
nor gives them more than it brings. -/
def FairTo (p : Nat) (h : List StakingEntry) (s : Situated World StakingStore) (op : StakingOp) : Prop :=
  ∀ m ∈ op.move s.store.pools p, (s.store.pools.accumulator p).FairOn yieldPerTokenPrecision (stakers p h) m

instance (p : Nat) (h : List StakingEntry) (s : Situated World StakingStore) (op : StakingOp) :
    Decidable (FairTo p h s op) :=
  inferInstanceAs (Decidable (∀ m ∈ op.move s.store.pools p,
    (s.store.pools.accumulator p).FairOn yieldPerTokenPrecision (stakers p h) m))

section

variable {s : Situated World StakingStore} {signers : List Address} {op : StakingOp} {t : StakingStore}
  {e : Event World (List Address) StakingStore StakingOp}

theorem counted_call (he : stakingPools.exec s signers op = some t) (f : StakingOp → Int) :
    counted f (s, .call signers op) = f op := by
  simp [counted, Component.done_call he]

theorem counted_idle (he : stakingPools.done s e = none) (f : StakingOp → Int) : counted f (s, e) = 0 := by
  simp [counted, he]

theorem paidIn_call (he : stakingPools.exec s signers op = some t) (p : Nat) :
    paidIn p (s, .call signers op) =
      if op.exits p then Bank.outflow t.bank.log s.world.contract - Bank.outflow s.store.bank.log s.world.contract
      else 0 := by
  simp [paidIn, Component.done_call he]

theorem paidIn_idle (he : stakingPools.done s e = none) (p : Nat) : paidIn p (s, e) = 0 := by
  simp [paidIn, he]

theorem stakers_sub {p : Nat} {h : List StakingEntry} {x : StakingEntry} {a : Address} (ha : a ∈ stakers p h) :
    a ∈ stakers p (x :: h) := by
  rw [stakers, List.mem_dedup, List.mem_filterMap] at ha ⊢
  obtain ⟨y, hy, hya⟩ := ha
  exact ⟨y, List.mem_cons_of_mem _ hy, hya⟩

/-- A depositor is a staker from then on. -/
theorem mem_stakers {p : Nat} {h : List StakingEntry} {a : Address} {x : Int}
    (he : stakingPools.exec s signers (.stakeCapital p a x) = some t) :
    a ∈ stakers p ((s, .call signers (.stakeCapital p a x)) :: h) := by
  rw [stakers, List.mem_dedup, List.mem_filterMap]
  exact ⟨_, List.mem_cons_self, by simp [depositor, Component.done_call he]⟩

end

variable {op : StakingOp} {h : List StakingEntry} {s : Situated World StakingStore}

/-- What a call counts for is what its move counts for. -/
theorem StakingOp.move_some {g : StakingPools} {p : Nat} {m : Accumulator.Move Address} (h : op.move g p = some m) :
    op.deposits p = m.deposited ∧ op.yieldTo p = m.yielded ∧ op.losses p = m.lost := by
  cases op with
  | createStakingPool => cases h
  | closeStakingPool => cases h
  | _ =>
    simp only [StakingOp.move] at h
    split at h
    case isTrue hp =>
      cases h
      simp [StakingOp.deposits, StakingOp.yieldTo, StakingOp.losses, Accumulator.Move.deposited,
        Accumulator.Move.yielded, Accumulator.Move.lost, hp]
    case isFalse => cases h

theorem StakingOp.move_none {g : StakingPools} {p : Nat} (h : op.move g p = none) :
    op.deposits p = 0 ∧ op.yieldTo p = 0 ∧ op.losses p = 0 ∧ op.exits p = false := by
  cases op with
  | createStakingPool => exact ⟨rfl, rfl, rfl, rfl⟩
  | closeStakingPool => exact ⟨rfl, rfl, rfl, rfl⟩
  | _ =>
    simp only [StakingOp.move] at h
    split at h
    case isTrue => cases h
    case isFalse hp => simp [StakingOp.deposits, StakingOp.yieldTo, StakingOp.losses, StakingOp.exits, hp]

/-- Only moves that take something out of a holding pay. -/
theorem StakingOp.paid_of_stays {g : StakingPools} {p : Nat} {m : Accumulator.Move Address} (h : op.move g p = some m)
    (hexits : op.exits p = false) (f : Accumulator Address) : f.paid yieldPerTokenPrecision m = 0 := by
  cases op with
  | createStakingPool => cases h
  | closeStakingPool => cases h
  | _ =>
    simp only [StakingOp.move] at h
    split at h
    case isTrue hp =>
      cases h
      first
        | rfl
        | simp [StakingOp.exits, hp] at hexits
    case isFalse => cases h

/-! ## The books over a run -/

/-- The books of a pool after a history: what is staked is the total and the losses
taken, and it is the stakers' alone. -/
structure Booked (p : Nat) (h : List StakingEntry) (g : StakingPools) : Prop where
  sound : g.Sound
  sparse : (g.accumulator p).Sparse
  weight : (g.accumulator p).weight = (g.accumulator p).total + lostFrom p h
  within : (g.accumulator p).Within (stakers p h)

theorem Booked.call {p : Nat} {signers : List Address} {t : StakingStore} (hi : Booked p h s.store.pools)
    (hu : Unsaturated s.store.pools op) (he : stakingPools.exec s signers op = some t) :
    Booked p ((s, .call signers op) :: h) t.pools := by
  have heffect := stakingEffect_of he
  have hmoved := heffect.refines hi.sound hu p
  have hlost : lostFrom p ((s, .call signers op) :: h) = op.losses p + lostFrom p h := by
    simp only [lostFrom, List.map_cons, List.sum_cons, counted_call he]
  cases hm : op.move s.store.pools p with
  | none =>
    rw [hm] at hmoved
    have hsame : t.pools.accumulator p = s.store.pools.accumulator p := hmoved
    obtain ⟨-, -, hloss, -⟩ := StakingOp.move_none hm
    refine ⟨heffect.sound hi.sound hu, hsame ▸ hi.sparse, ?_, ?_⟩
    · rw [hsame, hi.weight, hlost, hloss, Int.zero_add]
    · rw [hsame]
      exact fun a ha => hi.within a fun hmem => ha (stakers_sub hmem)
  | some m =>
    rw [hm] at hmoved
    obtain ⟨hvalid, happly⟩ := hmoved
    obtain ⟨-, -, hloss⟩ := StakingOp.move_some hm
    refine ⟨heffect.sound hi.sound hu, happly ▸ Accumulator.sparse_apply hi.sparse m, ?_, ?_⟩
    · have hweight := Accumulator.weight_apply (c := yieldPerTokenPrecision) hi.sparse m
      have hbefore := hi.weight
      rw [happly, hlost, hloss]
      omega
    · rw [happly]
      refine hi.within.apply hvalid (fun a ha => stakers_sub ha) fun a x hdeposit => ?_
      subst hdeposit
      cases op with
      | createStakingPool => cases hm
      | closeStakingPool => cases hm
      | _ =>
        simp only [StakingOp.move] at hm
        split at hm
        case isTrue hp =>
          cases hm <;> exact hp ▸ mem_stakers he
        case isFalse => cases hm

theorem booked_start (p : Nat) : Booked p [] .empty where
  sound := StakingPools.sound_empty
  sparse := by simp [Accumulator.Sparse, StakingPools.accumulator, StakingPools.loadPosition, StakingPools.empty,
    StakerPosition.holding]
  weight := by simp [Accumulator.weight, StakingPools.accumulator, StakingPools.loadPosition, StakingPools.empty,
    StakerPosition.holding, lostFrom]
  within _ _ := ⟨rfl, rfl⟩

theorem Booked.idle {p : Nat} {e} {g : StakingPools} (hi : Booked p h s.store.pools)
    (hidle : stakingPools.done s e = none) (hg : g = s.store.pools) : Booked p ((s, e) :: h) g := by
  have hlost : lostFrom p ((s, e) :: h) = lostFrom p h := by
    simp only [lostFrom, List.map_cons, List.sum_cons, counted_idle hidle, Int.zero_add]
  subst hg
  exact ⟨hi.sound, hi.sparse, hlost ▸ hi.weight, fun a ha => hi.within a fun hmem => ha (stakers_sub hmem)⟩

/-! ## What is paid is covered -/

theorem precision_pos : 0 < yieldPerTokenPrecision := by decide

/-- What is paid out and what the positions are worth is covered by what came in. -/
structure Covered (p : Nat) (h : List StakingEntry) (g : StakingPools) : Prop extends Booked p h g where
  solid : (g.accumulator p).Solid yieldPerTokenPrecision
  paid : paidOut p h * yieldPerTokenPrecision + (g.accumulator p).worth yieldPerTokenPrecision ≤
    (depositedTo p h + yieldedTo p h - lostFrom p h) * yieldPerTokenPrecision

/-- What a call that goes through pays out of the pool is what its move pays. -/
theorem paidIn_move {p : Nat} {signers : List Address} {t : StakingStore} (hi : s.store.pools.Sound)
    (hu : Unsaturated s.store.pools op) (he : stakingPools.exec s signers op = some t) {m : Accumulator.Move Address}
    (hm : op.move s.store.pools p = some m) :
    paidIn p (s, .call signers op) = (s.store.pools.accumulator p).paid yieldPerTokenPrecision m := by
  rw [paidIn_call he]
  cases hexits : op.exits p with
  | false => exact (StakingOp.paid_of_stays hm hexits _).symm
  | true =>
    rw [if_pos rfl, (stakingEffect_of he).pays hi hu hexits hm]
    omega

theorem Covered.call {p : Nat} {signers : List Address} {t : StakingStore} (hi : Covered p h s.store.pools)
    (hu : Unsaturated s.store.pools op)
    (hfair : ∀ m ∈ op.move s.store.pools p, (s.store.pools.accumulator p).Fair yieldPerTokenPrecision m)
    (he : stakingPools.exec s signers op = some t) : Covered p ((s, .call signers op) :: h) t.pools := by
  have hmoved := (stakingEffect_of he).refines hi.sound hu p
  have hbooked := hi.toBooked.call hu he
  have hflows : paidOut p ((s, .call signers op) :: h) = paidIn p (s, .call signers op) + paidOut p h ∧
      depositedTo p ((s, .call signers op) :: h) = op.deposits p + depositedTo p h ∧
      yieldedTo p ((s, .call signers op) :: h) = op.yieldTo p + yieldedTo p h ∧
      lostFrom p ((s, .call signers op) :: h) = op.losses p + lostFrom p h := by
    simp only [paidOut, depositedTo, yieldedTo, lostFrom, List.map_cons, List.sum_cons, counted_call he, and_self]
  obtain ⟨hpaid, hdeposited, hyielded, hlost⟩ := hflows
  have hbefore := hi.paid
  cases hm : op.move s.store.pools p with
  | none =>
    rw [hm] at hmoved
    have hsame : t.pools.accumulator p = s.store.pools.accumulator p := hmoved
    obtain ⟨hnoDeposit, hnoYield, hnoLoss, hexits⟩ := StakingOp.move_none hm
    refine ⟨hbooked, hsame ▸ hi.solid, ?_⟩
    rw [hpaid, paidIn_call he, hexits, hdeposited, hyielded, hlost, hnoDeposit, hnoYield, hnoLoss, hsame]
    simpa using hbefore
  | some m =>
    rw [hm] at hmoved
    obtain ⟨hvalid, happly⟩ := hmoved
    obtain ⟨hdeposit, hyield, hloss⟩ := StakingOp.move_some hm
    have hmove := Accumulator.paid_add_worth_le hi.solid hvalid (hfair m hm)
    refine ⟨hbooked, happly ▸ hi.solid.apply precision_pos hvalid (hfair m hm), ?_⟩
    rw [hpaid, paidIn_move hi.sound hu he hm, hdeposited, hyielded, hlost, hdeposit, hyield, hloss, happly]
    linarith

/-- The calls of a run are small enough that nothing saturates. -/
abbrev Small (h : List StakingEntry) : Prop :=
  Along (stakingPools.WhenDone fun s op => Unsaturated s.store.pools op) h

section

variable {world : World} {access : Access} {bank : Ledger} {reserve : Int} {h : List StakingEntry}
  {s : Situated World StakingStore}

/-- What every small run keeps, it keeps step by step. -/
theorem small_run (I : List StakingEntry → StakingPools → Prop)
    {ok : List StakingEntry → Situated World StakingStore → StakingOp → Prop} (h0 : I [] .empty)
    (hcall : ∀ {h s signers op t}, I h s.store.pools → Unsaturated s.store.pools op → ok h s op →
      stakingPools.exec s signers op = some t → I ((s, .call signers op) :: h) t.pools)
    (hidle : ∀ {h s e}, I h s.store.pools → stakingPools.done s e = none → I ((s, e) :: h) s.store.pools)
    (hr : Run stakingPools.Step (stakingStart world access bank reserve) h s) (hsmall : Small h)
    (hok : Throughout (fun h => stakingPools.WhenDone (ok h)) h) : I h s.store.pools := by
  have hboth : Throughout (fun h => stakingPools.WhenDone fun s op => Unsaturated s.store.pools op ∧ ok h s op) h :=
    (hsmall.throughout.and hok).mono fun _ _ _ hand d hd => ⟨hand.1 d hd, hand.2 d hd⟩
  refine Component.inv_throughout (I := fun h s => I h s.store.pools) h0 ?_ ?_ hr hboth
  · intro h s signers op t _ hi hok he
    exact hcall hi hok.1 hok.2 he
  · intro h s e s' hi hnone hsame
    have hpools : s'.store.pools = s.store.pools := by
      rcases hsame with rfl | hdrift
      · rfl
      · exact hdrift.2.2
    rw [hpools]
    exact hidle hi hnone

theorem booked_run (hr : Run stakingPools.Step (stakingStart world access bank reserve) h s) (hsmall : Small h)
    (p : Nat) :
    Booked p h s.store.pools := by
  refine small_run (Booked p) (booked_start p) ?_ ?_ hr hsmall hsmall.throughout
  · intro h s signers op t hi hu _ he
    exact hi.call hu he
  · intro h s e hi hnone
    exact hi.idle hnone rfl

theorem covered_start (p : Nat) : Covered p [] .empty where
  toBooked := booked_start p
  solid := ⟨(booked_start p).sparse, fun _ => le_rfl, fun _ => by
    simp [Host.Holding.worth, Host.Holding.gain, StakingPools.accumulator, StakingPools.loadPosition,
      StakingPools.empty, StakerPosition.holding]⟩
  paid := by
    simp [Accumulator.worth, Holding.worth, Holding.gain, StakingPools.accumulator, StakingPools.loadPosition,
      StakingPools.empty, StakerPosition.holding, paidOut, depositedTo, yieldedTo, lostFrom]

theorem Covered.idle {p : Nat} {e} (hi : Covered p h s.store.pools) (hidle : stakingPools.done s e = none) :
    Covered p ((s, e) :: h) s.store.pools where
  toBooked := hi.toBooked.idle hidle rfl
  solid := hi.solid
  paid := by
    simpa only [paidOut, depositedTo, yieldedTo, lostFrom, List.map_cons, List.sum_cons, counted_idle hidle,
      paidIn_idle hidle, Int.zero_add] using hi.paid

theorem Covered.paid_le {p : Nat} {g : StakingPools} (hi : Covered p h g) :
    paidOut p h ≤ depositedTo p h + yieldedTo p h - lostFrom p h := by
  have hworth := hi.solid.worth_nonneg
  have hpaid := hi.paid
  refine le_of_mul_le_mul_right ?_ precision_pos
  omega

/-- In every run whose calls are small and fair to the pool, what it has paid to
stakers is at most the deposits and the yields less the losses. -/
theorem paid_within_funds (hr : Run stakingPools.Step (stakingStart world access bank reserve) h s) (hsmall : Small h)
    {p : Nat} (hfair : Throughout (fun h => stakingPools.WhenDone (FairTo p h)) h) :
    paidOut p h ≤ depositedTo p h + yieldedTo p h - lostFrom p h := by
  have hcovered : Covered p h s.store.pools := by
    refine small_run (Covered p) (covered_start p) ?_ ?_ hr hsmall hfair
    · intro h s signers op t hi hu hok he
      refine hi.call hu (fun m hm => ?_) he
      exact hi.within.fair (List.nodup_dedup _) (hok m hm)
    · intro h s e hi hnone
      exact hi.idle hnone
  exact hcovered.paid_le

end

/-! ## Totals -/

/-- No loss is taken off the pool. -/
abbrev Undiminished (p : Nat) (h : List StakingEntry) : Prop :=
  Along (stakingPools.WhenDone fun _ op => op.losses p = 0) h

/-- A loss that goes through takes something. -/
theorem counted_losses_nonneg (p : Nat) (e : StakingEntry) : 0 ≤ counted (·.losses p) e := by
  unfold counted
  split
  case h_1 op t he =>
    obtain ⟨signers, -, hexec⟩ := Component.of_done he
    cases stakingEffect_of hexec with
    | lost hpos =>
      simp only [StakingOp.losses]
      split
      · exact hpos.le
      · exact le_rfl
    | _ => exact le_rfl
  case h_2 => exact le_rfl

theorem lostFrom_nonneg (p : Nat) (h : List StakingEntry) : 0 ≤ lostFrom p h := by
  refine List.sum_nonneg fun x hx => ?_
  obtain ⟨e, -, rfl⟩ := List.mem_map.1 hx
  exact counted_losses_nonneg p e

theorem whenDone_losses_iff (p : Nat) (e : StakingEntry) :
    stakingPools.WhenDone (fun _ op => op.losses p = 0) e.1 e.2 ↔ counted (·.losses p) e = 0 := by
  unfold Component.WhenDone counted
  cases he : stakingPools.done e.1 e.2 with
  | none => simp
  | some d => simp

/-- Nothing is lost exactly when no loss is taken. -/
theorem undiminished_iff (p : Nat) (h : List StakingEntry) : Undiminished p h ↔ lostFrom p h = 0 := by
  induction h with
  | nil => simp [Undiminished, Along, lostFrom]
  | cons e h ih =>
    have hhead := counted_losses_nonneg p e
    have htail := lostFrom_nonneg p h
    have hsum : lostFrom p (e :: h) = counted (·.losses p) e + lostFrom p h := List.sum_cons
    rw [Undiminished, Along, List.forall_mem_cons, whenDone_losses_iff, hsum]
    rw [Undiminished, Along] at ih
    rw [ih]
    omega

/-- In every run whose calls are small, the total of a pool is what its positions
hold, and a distribution gives them at most what it brings, exactly when no loss has
been taken off the pool. -/
theorem totals_follow_iff {world : World} {access : Access} {bank : Ledger} {reserve : Int} {h : List StakingEntry}
    {s : Situated World StakingStore} (hr : Run stakingPools.Step (stakingStart world access bank reserve) h s)
    (hsmall : Small h) {p : Nat} {pool : StakingPool} (hpool : s.store.pools.stakingPool p = some pool) :
    (∑ᶠ a, (s.store.pools.loadPosition p a).amount = pool.totalStaked ∧
      ∀ signers admins x t pool', stakingPools.exec s signers (.distributeYield admins p x) = some t →
        Unsaturated s.store.pools (.distributeYield admins p x) → t.pools.stakingPool p = some pool' →
          ∑ᶠ a, (pool'.yieldPerTokenScaled - pool.yieldPerTokenScaled) * (s.store.pools.loadPosition p a).amount ≤
            x * yieldPerTokenPrecision) ↔
      Undiminished p h := by
  have hbooked := booked_run hr hsmall p
  have hweight : ∑ᶠ a, (s.store.pools.loadPosition p a).amount = pool.totalStaked + lostFrom p h := by
    have h := hbooked.weight
    rw [StakingPools.accumulator_some hpool] at h
    exact h
  rw [undiminished_iff]
  refine ⟨fun hclaim => by omega, fun hlost => ⟨by omega, ?_⟩⟩
  intro signers admins x t pool' he hu hpool'
  cases stakingEffect_of he with
  | @distributed _ _ _ pool₀ pool₁ hpos hpool₀ htotal hid _ hindex ht =>
    rw [hpool] at hpool₀
    cases hpool₀
    have hstored : pool₁ = pool' := by
      have hkey := hbooked.sound.poolId p pool hpool
      simp only [ht, StakingPools.savePool, hid, hkey, update_self, Option.some.injEq] at hpool'
      exact hpool'
    have hfits : FitsI128 (pool.yieldPerTokenScaled + (x * yieldPerTokenPrecision).tdiv pool.totalStaked) := by
      simpa only [Unsaturated, StakingPools.accumulator_some hpool, Accumulator.share] using hu
    have hgrown : pool'.yieldPerTokenScaled - pool.yieldPerTokenScaled =
        (s.store.pools.accumulator p).share yieldPerTokenPrecision x := by
      rw [← hstored, hindex, satI128_of_fits hfits, StakingPools.accumulator_some hpool]
      simp only [Accumulator.share]
      omega
    rw [hgrown, ← mul_finsum]
    refine Accumulator.share_mul_weight_le precision_pos hpos.le ?_ ?_
    · rw [StakingPools.accumulator_some hpool]
      exact htotal
    · have htotals := hbooked.weight
      omega

/-- The storage of the pools, some time later. -/
def later (secs : Nat) (s : Situated World StakingStore) : Situated World StakingStore :=
  ⟨{ s.world with now := s.world.now + secs }, s.store⟩

theorem run_later {s₀ : Situated World StakingStore} (hr : Run stakingPools.Step s₀ h s) (secs : Nat) :
    Run stakingPools.Step s₀ ((s, .elsewhere (later secs s).world s.store) :: h) (later secs s) :=
  hr.snoc (.elsewhere ⟨Nat.le_add_right _ _, rfl, rfl⟩)

/-- The calls in the order made, a day apart from each other, with the history they make. -/
def daily (s : Situated World StakingStore) (h : List StakingEntry) :
    List (List Address × StakingOp) → List StakingEntry × Situated World StakingStore
  | [] => (h, s)
  | (signers, op) :: calls =>
    let t := stakingPools.after s signers op
    daily (later stakingUnstakeDelaySecs t)
      ((t, .elsewhere (later stakingUnstakeDelaySecs t).world t.store) :: (s, .call signers op) :: h) calls

theorem run_daily {s₀ : Situated World StakingStore} (hr : Run stakingPools.Step s₀ h s)
    (calls : List (List Address × StakingOp)) : Run stakingPools.Step s₀ (daily s h calls).1 (daily s h calls).2 := by
  induction calls generalizing h s with
  | nil => exact hr
  | cons call calls ih => exact ih (run_later (hr.snoc (.call s call.1 call.2)) stakingUnstakeDelaySecs)

/-- A pool of token 100 with one staker, half of whose stake is lost. -/
def halfLost : List (List Address × StakingOp) :=
  [([1], .createStakingPool [1] 100), ([2], .stakeCapital 1 2 100), ([1], .applyStakingPoolLoss [1] 1 50)]

/-- The staker takes everything out at once, and gets what is left. -/
def takenOut : List (List Address × StakingOp) := [([2], .queueUnstake 1 2 100), ([2], .processUnstake 1 2)]

theorem paid_within_funds_taken_out :
    ∃ h s, Run stakingPools.Step (stakingStart sampleWorld .open sampleBank 1000) h s ∧ depositedTo 1 h = 100 ∧
      lostFrom 1 h = 50 ∧ paidOut 1 h = 50 ∧ paidOut 1 h ≤ depositedTo 1 h + yieldedTo 1 h - lostFrom 1 h := by
  have hr := run_daily (.nil : Run stakingPools.Step (stakingStart sampleWorld .open sampleBank 1000) [] _)
    (halfLost ++ takenOut)
  exact ⟨_, _, hr, by decide +kernel, by decide +kernel, by decide +kernel,
    paid_within_funds hr (by decide +kernel) (by decide +kernel)⟩

/-- The staker takes out a tenth first, which its share of the loss swallows whole;
the rest of the loss is forgotten, and the rest of the stake paid. -/
def takenInParts : List (List Address × StakingOp) :=
  [([2], .queueUnstake 1 2 10), ([2], .processUnstake 1 2), ([2], .queueUnstake 1 2 90), ([2], .processUnstake 1 2)]

/-- A pool pays more than the deposits and yields less the losses. -/
theorem paid_beyond_funds :
    ¬ ∀ world access bank reserve h s p, Run stakingPools.Step (stakingStart world access bank reserve) h s → Small h →
      paidOut p h ≤ depositedTo p h + yieldedTo p h - lostFrom p h := by
  intro hclaim
  have hr := run_daily (.nil : Run stakingPools.Step (stakingStart sampleWorld .open sampleBank 1000) [] _)
    (halfLost ++ takenInParts)
  have hle := hclaim _ _ _ _ _ _ 1 hr (by decide +kernel)
  exact absurd hle (by decide +kernel)

/-- Two stakers and a yield: nothing is lost, and the total is what they hold. -/
def yieldShared : List (List Address × StakingOp) :=
  [([1], .createStakingPool [1] 100), ([2], .stakeCapital 1 2 100), ([3], .stakeCapital 1 3 200),
    ([1], .distributeYield [1] 1 30), ([2], .claimYield 1 2), ([3], .queueUnstake 1 3 50), ([3], .processUnstake 1 3)]

theorem totals_follow_iff_shared :
    ∃ h s pool, Run stakingPools.Step (stakingStart sampleWorld .open sampleBank 1000) h s ∧
      s.store.pools.stakingPool 1 = some pool ∧ pool.totalStaked = 250 ∧ paidOut 1 h = 80 ∧
      ((∑ᶠ a, (s.store.pools.loadPosition 1 a).amount = pool.totalStaked ∧
        ∀ signers admins x t pool', stakingPools.exec s signers (.distributeYield admins 1 x) = some t →
          Unsaturated s.store.pools (.distributeYield admins 1 x) → t.pools.stakingPool 1 = some pool' →
            ∑ᶠ a, (pool'.yieldPerTokenScaled - pool.yieldPerTokenScaled) * (s.store.pools.loadPosition 1 a).amount ≤
              x * yieldPerTokenPrecision) ↔
        Undiminished 1 h) := by
  have hr := run_daily (.nil : Run stakingPools.Step (stakingStart sampleWorld .open sampleBank 1000) [] _) yieldShared
  have hpool : (daily (stakingStart sampleWorld .open sampleBank 1000) [] yieldShared).2.store.pools.stakingPool 1 =
      some ⟨1, 100, 250, 100000000000, 121666, 30, 1259200, .active, 1000000⟩ := by decide +kernel
  have hsmall : Small (daily (stakingStart sampleWorld .open sampleBank 1000) [] yieldShared).1 := by decide +kernel
  have hpaid : paidOut 1 (daily (stakingStart sampleWorld .open sampleBank 1000) [] yieldShared).1 = 80 := by
    decide +kernel
  generalize daily (stakingStart sampleWorld .open sampleBank 1000) [] yieldShared = run at hr hpool hsmall hpaid
  exact ⟨_, _, _, hr, hpool, rfl, hpaid, totals_follow_iff hr hsmall hpool⟩

/-- After a loss the total is less than what is staked, and a distribution gives more than it brings. -/
theorem totals_fall_behind :
    (¬ ∀ world access bank reserve h s p pool, Run stakingPools.Step (stakingStart world access bank reserve) h s →
      Small h → s.store.pools.stakingPool p = some pool →
        ∑ᶠ a, (s.store.pools.loadPosition p a).amount = pool.totalStaked) ∧
    ¬ ∀ world access bank reserve h s p pool, Run stakingPools.Step (stakingStart world access bank reserve) h s →
      Small h → s.store.pools.stakingPool p = some pool →
        ∀ signers admins x t pool', stakingPools.exec s signers (.distributeYield admins p x) = some t →
          Unsaturated s.store.pools (.distributeYield admins p x) → t.pools.stakingPool p = some pool' →
            ∑ᶠ a, (pool'.yieldPerTokenScaled - pool.yieldPerTokenScaled) * (s.store.pools.loadPosition p a).amount ≤
              x * yieldPerTokenPrecision := by
  have hr := run_daily (.nil : Run stakingPools.Step (stakingStart sampleWorld .open sampleBank 1000) [] _) halfLost
  have hsmall : Small (daily (stakingStart sampleWorld .open sampleBank 1000) [] halfLost).1 := by decide +kernel
  have hpool : (daily (stakingStart sampleWorld .open sampleBank 1000) [] halfLost).2.store.pools.stakingPool 1 =
      some ⟨1, 100, 50, -500000000000, 500, 0, 1000000, .active, 1000000⟩ := by decide +kernel
  have hlost : lostFrom 1 (daily (stakingStart sampleWorld .open sampleBank 1000) [] halfLost).1 = 50 := by
    decide +kernel
  have hexec : (stakingPools.exec (daily (stakingStart sampleWorld .open sampleBank 1000) [] halfLost).2 [1]
      (.distributeYield [1] 1 50)).isSome := by decide +kernel
  have hfits : Unsaturated (daily (stakingStart sampleWorld .open sampleBank 1000) [] halfLost).2.store.pools
      (.distributeYield [1] 1 50) := by decide +kernel
  have hpool' : (stakingPools.after (daily (stakingStart sampleWorld .open sampleBank 1000) [] halfLost).2 [1]
      (.distributeYield [1] 1 50)).store.pools.stakingPool 1 =
        some ⟨1, 100, 50, 500000000000, 1216666, 50, 1259200, .active, 1000000⟩ := by decide +kernel
  generalize daily (stakingStart sampleWorld .open sampleBank 1000) [] halfLost = run at *
  have hheld : ∑ᶠ a, (run.2.store.pools.loadPosition 1 a).amount = 100 := by
    have hweight := (booked_run hr hsmall 1).weight
    rw [StakingPools.accumulator_some hpool, hlost] at hweight
    exact hweight
  refine ⟨fun hclaim => ?_, fun hclaim => ?_⟩
  · have htotal := hclaim _ _ _ _ _ _ 1 _ hr hsmall hpool
    rw [hheld] at htotal
    exact absurd htotal (by decide)
  · have hle := hclaim _ _ _ _ _ _ 1 _ hr hsmall hpool _ _ _ _ _ (Component.exec_of_isSome hexec) hfits hpool'
    rw [← mul_finsum, hheld] at hle
    exact absurd hle (by decide)

end QuorumCredit
